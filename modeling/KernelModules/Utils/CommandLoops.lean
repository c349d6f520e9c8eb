import KernelModules.Utils.CommandAtoms

/-!
# Executing a command line of extest

`do_cmd` goes over the atoms of a line: it calls the handler of each command with the command's parameters
and executes the body of a group as often as the number before it says, by calling itself from the opening
bracket on.  Where the group ends it learns from what that call returns.

* `doCmd` is the function, with the local variables of a call in a `Frame`: the index that the recursive
  call has returned is not there before the first one; a run is the list of its events, which are the
  calls of the handlers and the numbers that are read as repeat counts;
* `Line` is the syntax of the lines, `flatten` its atoms, `calls` what is to be called, with every group
  unrolled.  A command that lists the atoms takes all of them to the end of the line;
* `Line.run` executes a line without the count 0, `Line.runs_back` says that a run that returns has met
  none;
* `doCmd_unrolls_iff`: a line is executed as its syntax says exactly when no group of it has the count 0.
  Then the index is used that an earlier group has left, or none at all.
-/

namespace KernelModules.Utils.Extest

/-! ### The program -/

/-- `CmdHELP`. -/
def cmdHELP : ℕ := 3

/-- `CmdATOMS`. -/
def cmdATOMS : ℕ := 4

/-- `get_cmdd`. -/
def getCmdd (cmds : List CmdDesc) (cmdId : ℕ) : Option CmdDesc := cmds.find? (·.id = cmdId)

/-- The types of the atoms that are parameters. -/
def Atom.IsParam (a : Atom) : Prop := a.type = .numeric ∨ a.type = .operator ∨ a.type = .string

instance (a : Atom) : Decidable a.IsParam := by unfold Atom.IsParam; infer_instance

/-- A command with a name of its own. -/
def Atom.IsCommand (a : Atom) : Prop := a.type = .alpha ∧ a.cmdId ≠ cmdNOCM

instance (a : Atom) : Decidable a.IsCommand := by unfold Atom.IsCommand; infer_instance

/-- The loop of `param_amount` over the parameters: a number before an opening bracket is none. -/
def countParams : List Atom → Option ℕ
  | [] => none
  | a :: rest =>
    if a.IsParam then
      if a.type = .numeric then do
        if (← rest.head?).type = .opens then return 0
        return (← countParams rest) + 1
      else do
        return (← countParams rest) + 1
    else some 0

/-- The loop of `param_amount` to the end of the line. -/
def countAtoms : List Atom → Option ℕ
  | [] => none
  | a :: rest =>
    if a.type ≠ .terminator ∧ a.type ≠ .illegalChar then do
      return (← countAtoms rest) + 1
    else some 0

/-- The test of `param_amount` for a command after the one for help. -/
def helpOn (c : Atom) (rest : List Atom) : Option Bool :=
  if c.cmdId = cmdHELP then rest.head?.map fun k => decide k.IsCommand else some false

/-- `param_amount`, of the atoms from a command on. -/
def paramAmount : List Atom → Option ℕ
  | [] => none
  | c :: rest => do
    if ← helpOn c rest then return 1
    else if c.cmdId = cmdATOMS then countAtoms rest
    else countParams rest

/-- `clone_args`. -/
def cloneArgs (dst src : List Atom) (nr : ℕ) : Option (List Atom) := do
  let last ← dst[nr + 1]?
  if nr < src.length then
    return src.take (nr + 1) ++ { last with type := .terminator } :: dst.drop (nr + 2)
  else none

/-- What a handler sees of its arguments: the atoms before the terminator. -/
def received : List Atom → Option (List Atom)
  | [] => none
  | a :: rest => if a.type = .terminator then some [] else (received rest).map (a :: ·)

/-- The handler of the command `idx` is called with `pa` parameters, or atom `idx` is read as a count. -/
inductive Event
  | handle (idx pa : ℕ) (args : Option (List Atom))
  | count (idx : ℕ)

/-- The local variables of a call; `recur` (`rec`) has no value before the first recursive call. -/
structure Frame where
  idx : ℕ
  count : ℤ
  recur : Option ℕ
  argsCopy : List Atom

/-- The local variables when `do_cmd` is called with `idx`. -/
def Frame.start (idx : ℕ) : Frame :=
  ⟨idx, 1, none, List.replicate (maxArgCount + 1) (Atom.ofType .terminator)⟩

/-- A run, after these events. -/
def after (es : List Event) (run : Option (ℕ × List Event)) : Option (ℕ × List Event) :=
  run.map fun r => (r.1, es ++ r.2)

/-- The loop over the recursive calls, which all run alike. -/
def repeatCmd (run : Option (ℕ × List Event)) : ℕ → Option ℕ → Option (Option ℕ × List Event)
  | 0, recur => some (recur, [])
  | n + 1, _ => do
    let r ← run
    let rest ← repeatCmd run n (some r.1)
    return (rest.1, r.2 ++ rest.2)

/-- `do_cmd`, from the frame on: the index that it returns, and what it has done.  None stands for an
access outside an array, an index without a value, a command that is not in the list, and more than
`fuel` steps. -/
def doCmd (cmds : List CmdDesc) (atoms : List Atom) : ℕ → Frame → Option (ℕ × List Event)
  | 0, _ => none
  | fuel + 1, s => do
    let ap ← atoms[s.idx]?
    let count := if ap.type ≠ .numeric ∧ ap.type ≠ .opens then 1 else s.count
    match ap.type with
    | .numeric =>
      after [.count s.idx] (doCmd cmds atoms fuel { s with idx := s.idx + 1, count := ap.val })
    | .string => doCmd cmds atoms fuel { s with idx := s.idx + 1, count }
    | .opens => do
      let (recur, es) ← repeatCmd (doCmd cmds atoms fuel (.start (s.idx + 1))) count.toNat s.recur
      let idx ← recur
      after es (doCmd cmds atoms fuel { s with idx, count := 1, recur })
    | .alpha => do
      let _cdp ← getCmdd cmds ap.cmdId
      let pa ← paramAmount (atoms.drop s.idx)
      let argsCopy ← cloneArgs s.argsCopy (atoms.drop s.idx) pa
      after [.handle s.idx pa (received argsCopy)]
        (doCmd cmds atoms fuel { s with idx := s.idx + pa + 1, count, argsCopy })
    | .close => return (s.idx + 1, [])
    | .terminator => return (s.idx, [])
    | _ => return (s.idx + 1, [])

/-! ### Lines -/

/-- The syntax of a line, or of the body of a group.  Its parameter says whether it ends with a command
that lists the atoms: then this takes everything to the end of the line, and no group around it is
closed. -/
inductive Line : Bool → Type
  | done : Line false
  | command {b : Bool} (c : Atom) (params : List Atom) (rest : Line b) : Line b
  | group {b : Bool} (count : Option Atom) (opens close : Atom) (body : Line false) (rest : Line b) :
      Line b
  | openGroup (count : Option Atom) (opens : Atom) (body : Line true) : Line true
  | list (c : Atom) (params : List Atom) : Line true

namespace Line

/-- The atoms of a line. -/
def flatten {b : Bool} : Line b → List Atom
  | done => []
  | command c params rest => c :: (params ++ rest.flatten)
  | group count o c body rest => count.toList ++ o :: (body.flatten ++ c :: rest.flatten)
  | openGroup count o body => count.toList ++ o :: body.flatten
  | list c params => c :: params

/-- How often a group is executed. -/
def times (count : Option Atom) : ℕ := (count.map fun a => a.val.toNat).getD 1

/-- **What a line says**: the commands with their parameters, every group unrolled. -/
def calls {b : Bool} : Line b → List (List Atom)
  | done => []
  | command c params rest => (c :: params) :: rest.calls
  | group count _ _ body rest => (List.replicate (times count) body.calls).flatten ++ rest.calls
  | openGroup count _ body => (List.replicate (times count) body.calls).flatten
  | list c params => [c :: params]

/-- No group has the count 0. -/
def NoZero {b : Bool} : Line b → Prop
  | done => True
  | command _ _ rest => rest.NoZero
  | group count _ _ body rest => times count ≠ 0 ∧ body.NoZero ∧ rest.NoZero
  | openGroup count _ body => times count ≠ 0 ∧ body.NoZero
  | list _ _ => True

/-- The parameters of a command, before the atoms `next` of the line.  A number before an opening bracket
is the count of the group, and a command after the one for help is its parameter. -/
inductive ParamsOf (c : Atom) : List Atom → List Atom → Prop
  | help {k : Atom} {next : List Atom} : c.cmdId = cmdHELP → k.IsCommand → ParamsOf c [k] next
  | plain {params next : List Atom} : c.cmdId ≠ cmdATOMS → (∀ p ∈ params, p.IsParam) →
      (c.cmdId = cmdHELP → ∀ k ∈ (params ++ next).head?, ¬ k.IsCommand) →
      (∀ n ∈ params.getLast?, ∀ o ∈ next.head?, n.type = .numeric → o.type ≠ .opens) →
      ParamsOf c params next

/-- A repeat count. -/
def IsCount (count : Option Atom) : Prop := ∀ n ∈ count, n.type = .numeric ∧ 0 ≤ n.val

/-- A command of the list. -/
def Known (cmds : List CmdDesc) (c : Atom) : Prop := c.type = .alpha ∧ (getCmdd cmds c.cmdId).isSome

/-- The atoms of the line have the types that the syntax says. -/
def Ok (cmds : List CmdDesc) {b : Bool} : Line b → Prop
  | done => True
  | command c params rest => Known cmds c ∧ ParamsOf c params rest.flatten ∧ rest.Ok cmds
  | group count o c body rest =>
    IsCount count ∧ o.type = .opens ∧ c.type = .close ∧ body.Ok cmds ∧ rest.Ok cmds
  | openGroup count o body => IsCount count ∧ o.type = .opens ∧ body.Ok cmds
  | list c params => Known cmds c ∧ c.cmdId = cmdATOMS ∧
    ∀ p ∈ params, p.type ≠ .terminator ∧ p.type ≠ .illegalChar

/-- What a run of a line does that stands at index `s`. -/
def events {b : Bool} : Line b → ℕ → List Event
  | done, _ => []
  | command c params rest, s =>
    .handle s params.length (some (c :: params)) :: rest.events (s + params.length + 1)
  | group count _ _ body rest, s =>
    count.toList.map (fun _ => .count s) ++
      (List.replicate (times count) (body.events (s + count.toList.length + 1))).flatten ++
      rest.events (s + count.toList.length + 1 + body.flatten.length + 1)
  | openGroup count _ body, s =>
    count.toList.map (fun _ => .count s) ++
      (List.replicate (times count) (body.events (s + count.toList.length + 1))).flatten
  | list c params, s => [.handle s params.length (some (c :: params))]

end Line

/-! ### Atoms from an index on -/

theorem get_of_drop {atoms l : List Atom} {s : ℕ} {a : Atom} (h : atoms.drop s = a :: l) :
    atoms[s]? = some a := by
  rw [← List.head?_drop, h]
  rfl

theorem drop_add {atoms l : List Atom} {s n : ℕ} (xs : List Atom) (h : atoms.drop s = xs ++ l)
    (hn : xs.length = n) : atoms.drop (s + n) = l := by
  rw [← List.drop_drop, h, ← hn, List.drop_left]

theorem drop_add_succ {atoms xs l : List Atom} {s : ℕ} {a : Atom} (h : atoms.drop s = xs ++ a :: l) :
    atoms.drop (s + xs.length + 1) = l := by
  have happend : atoms.drop s = (xs ++ [a]) ++ l := by rw [h, List.append_assoc]; rfl
  rw [Nat.add_assoc]
  exact drop_add _ happend (List.length_append ..)

/-! ### Parameters -/

/-- What follows the parameters of a command. -/
def Stops (l : List Atom) : Prop :=
  ∃ a rest, l = a :: rest ∧
    (¬ a.IsParam ∨ a.type = .numeric ∧ ∃ o ∈ rest.head?, o.type = .opens)

theorem not_isParam_of {a : Atom} {t : AtomType} (h : a.type = t)
    (ht : t = .alpha ∨ t = .opens ∨ t = .close ∨ t = .terminator) : ¬ a.IsParam := by
  unfold Atom.IsParam
  rw [h]
  rcases ht with rfl | rfl | rfl | rfl <;> decide

theorem countParams_eq {ps rest : List Atom} (hps : ∀ p ∈ ps, p.IsParam) (hstop : Stops rest)
    (hlast : ∀ n ∈ ps.getLast?, ∀ o ∈ rest.head?, n.type = .numeric → o.type ≠ .opens) :
    countParams (ps ++ rest) = some ps.length := by
  induction ps with
  | nil =>
    obtain ⟨a, l, rfl, hend⟩ := hstop
    rw [List.nil_append, countParams]
    rcases hend with hnone | ⟨hnum, o, ho, hopen⟩
    · exact if_neg hnone
    · rw [if_pos (.inl hnum), if_pos hnum, Option.mem_def.mp ho, Option.bind_eq_bind, Option.bind_some,
        if_pos hopen]
      rfl
  | cons p ps ih =>
    have hrest : countParams (ps ++ rest) = some ps.length := by
      refine ih (fun q hq => hps q (List.mem_cons_of_mem _ hq)) fun n hn => hlast n ?_
      cases ps with
      | nil => simp at hn
      | cons q ps => rwa [List.getLast?_cons_cons]
    rw [List.cons_append, countParams, if_pos (hps p List.mem_cons_self)]
    split
    · rename_i hnum
      obtain ⟨x, hx, hopen⟩ : ∃ x, (ps ++ rest).head? = some x ∧ x.type ≠ .opens := by
        cases ps with
        | nil =>
          obtain ⟨a, l, rfl, -⟩ := hstop
          exact ⟨a, rfl, hlast p rfl a rfl hnum⟩
        | cons q ps =>
          refine ⟨q, rfl, fun hq => ?_⟩
          exact not_isParam_of hq (.inr (.inl rfl)) (hps q (by simp))
      rw [hx, Option.bind_eq_bind, Option.bind_some, if_neg hopen, hrest]
      rfl
    · rw [hrest]
      rfl

theorem countAtoms_eq {ps rest : List Atom} {t : Atom}
    (hps : ∀ p ∈ ps, p.type ≠ .terminator ∧ p.type ≠ .illegalChar) (ht : t.type = .terminator) :
    countAtoms (ps ++ t :: rest) = some ps.length := by
  induction ps with
  | nil => exact if_neg fun h => h.1 ht
  | cons p ps ih =>
    rw [List.cons_append, countAtoms, if_pos (hps p List.mem_cons_self),
      ih fun q hq => hps q (List.mem_cons_of_mem _ hq)]
    rfl

/-! ### Arguments of a handler -/

theorem received_eq {xs rest : List Atom} {t : Atom} (hxs : ∀ a ∈ xs, a.type ≠ .terminator)
    (ht : t.type = .terminator) : received (xs ++ t :: rest) = some xs := by
  induction xs with
  | nil => exact if_pos ht
  | cons a xs ih =>
    rw [List.cons_append, received, if_neg (hxs a List.mem_cons_self),
      ih fun b hb => hxs b (List.mem_cons_of_mem _ hb)]
    rfl

theorem cloneArgs_eq {dst ps : List Atom} {c : Atom} (hlen : ps.length + 1 < dst.length)
    (hargs : ∀ a ∈ c :: ps, a.type ≠ .terminator) (rest : List Atom) :
    ∃ copy, cloneArgs dst (c :: (ps ++ rest)) ps.length = some copy ∧ copy.length = dst.length ∧
      received copy = some (c :: ps) := by
  have htake : (c :: (ps ++ rest)).take (ps.length + 1) = c :: ps := by
    rw [List.take_succ_cons, List.take_left]
  unfold cloneArgs
  rw [List.getElem?_eq_getElem hlen, Option.bind_eq_bind, Option.bind_some, htake,
    if_pos (by rw [List.length_cons, List.length_append]; omega)]
  refine ⟨_, rfl, ?_, received_eq hargs rfl⟩
  rw [List.length_append, List.length_cons, List.length_cons, List.length_drop]
  omega

/-! ### One step -/

theorem after_nil (run : Option (ℕ × List Event)) : after [] run = run := by
  cases run <;> rfl

theorem after_some (es es' : List Event) (e : ℕ) : after es (some (e, es')) = some (e, es ++ es') := rfl


section Step

variable {cmds : List CmdDesc} {atoms : List Atom} {fuel : ℕ} {s : Frame}

theorem doCmd_end {t : Atom} {l : List Atom} (h : atoms.drop s.idx = t :: l) (b : Bool)
    (ht : t.type = .terminator ∨ b = false ∧ t.type = .close) :
    doCmd cmds atoms (fuel + 1) s = some (s.idx + (if t.type = .close then 1 else 0), []) := by
  rw [doCmd, get_of_drop h, Option.bind_eq_bind, Option.bind_some]
  rcases ht with ht | ⟨-, ht⟩ <;> rw [ht] <;> rfl

theorem doCmd_command {c : Atom} {ps rest : List Atom} (h : atoms.drop s.idx = c :: (ps ++ rest))
    (hc : Line.Known cmds c) (hpa : paramAmount (c :: (ps ++ rest)) = some ps.length)
    (hargs : ∀ a ∈ c :: ps, a.type ≠ .terminator) (hlen : ps.length + 1 < s.argsCopy.length) :
    ∃ copy, copy.length = s.argsCopy.length ∧ ∀ fuel, doCmd cmds atoms (fuel + 1) s =
      after [.handle s.idx ps.length (some (c :: ps))] (doCmd cmds atoms fuel
        { s with idx := s.idx + ps.length + 1, count := 1, argsCopy := copy }) := by
  obtain ⟨copy, hcopy, hsame, hrec⟩ := cloneArgs_eq hlen hargs rest
  obtain ⟨cdp, hcdp⟩ := Option.isSome_iff_exists.mp hc.2
  refine ⟨copy, hsame, fun fuel => ?_⟩
  rw [doCmd, get_of_drop h, Option.bind_eq_bind, Option.bind_some, hc.1]
  simp only [hcdp, h, hpa, hcopy, hrec, Option.bind_eq_bind, Option.bind_some]
  rw [if_pos (by decide)]

theorem doCmd_opens {o : Atom} {l : List Atom} (h : atoms.drop s.idx = o :: l)
    (ho : o.type = .opens) :
    doCmd cmds atoms (fuel + 1) s =
      (repeatCmd (doCmd cmds atoms fuel (.start (s.idx + 1))) s.count.toNat s.recur).bind fun r =>
        r.1.bind fun idx => after r.2 (doCmd cmds atoms fuel { s with idx, count := 1, recur := r.1 }) := by
  rw [doCmd, get_of_drop h, Option.bind_eq_bind, Option.bind_some, ho]
  rfl

theorem doCmd_numeric {n : Atom} {l : List Atom} (h : atoms.drop s.idx = n :: l)
    (hn : n.type = .numeric) :
    doCmd cmds atoms (fuel + 1) s =
      after [.count s.idx] (doCmd cmds atoms fuel { s with idx := s.idx + 1, count := n.val }) := by
  rw [doCmd, get_of_drop h, Option.bind_eq_bind, Option.bind_some, hn]

theorem doCmd_group {count : Option Atom} {o : Atom} {l : List Atom}
    (h : atoms.drop s.idx = count.toList ++ o :: l) (hcount : Line.IsCount count)
    (ho : o.type = .opens) (hs : s.count = 1) :
    doCmd cmds atoms (fuel + 1 + count.toList.length) s =
      after (count.toList.map fun _ => .count s.idx)
        ((repeatCmd (doCmd cmds atoms fuel (.start (s.idx + count.toList.length + 1)))
            (Line.times count) s.recur).bind fun r =>
          r.1.bind fun idx =>
            after r.2 (doCmd cmds atoms fuel { s with idx, count := 1, recur := r.1 })) := by
  cases count with
  | none =>
    rw [Option.toList_none, List.length_nil, Nat.add_zero, doCmd_opens h ho, hs, Nat.add_zero,
      List.map_nil, after_nil]
    rfl
  | some n =>
    have hdrop : atoms.drop (s.idx + 1) = o :: l := drop_add [n] h rfl
    rw [Option.toList_some, List.length_singleton, doCmd_numeric h (hcount n rfl).1,
      doCmd_opens (s := { s with idx := s.idx + 1, count := n.val }) hdrop ho]
    rfl

end Step

/-! ### The loop over the recursive calls -/

theorem repeatCmd_eq {run : Option (ℕ × List Event)} {e : ℕ} {es : List Event}
    (h : run = some (e, es)) (n : ℕ) (recur : Option ℕ) :
    repeatCmd run n recur =
      some (if n = 0 then recur else some e, (List.replicate n es).flatten) := by
  subst h
  induction n generalizing recur with
  | zero => rfl
  | succ n ih =>
    rw [repeatCmd]
    simp only [Option.bind_eq_bind, Option.bind_some, ih, ite_self]
    rw [if_neg (Nat.succ_ne_zero n), List.replicate_succ, List.flatten_cons]
    rfl

theorem repeatCmd_some {run : Option (ℕ × List Event)} {n : ℕ} (hn : n ≠ 0) {recur : Option ℕ}
    {r : Option ℕ × List Event} (h : repeatCmd run n recur = some r) :
    ∃ e, run = some e ∧ r.1 = some e.1 := by
  obtain ⟨m, rfl⟩ := Nat.exists_eq_succ_of_ne_zero hn
  obtain ⟨e, he, -⟩ := Option.bind_eq_some_iff.mp h
  rw [repeatCmd_eq he, if_neg hn] at h
  exact ⟨e, he, (congrArg Prod.fst (Option.some.inj h)).symm⟩

/-! ### Lines and their atoms -/

namespace Line

variable {cmds : List CmdDesc} {atoms : List Atom}

/-- What stands behind a line: the closing bracket of its group or the end of all atoms. -/
def Closes (b : Bool) (t : Atom) : Prop := t.type = .terminator ∨ b = false ∧ t.type = .close

theorem Closes.type_ne {b : Bool} {t : Atom} (ht : Closes b t) :
    t.type ≠ .alpha ∧ t.type ≠ .opens := by
  rcases ht with ht | ⟨-, ht⟩ <;> rw [ht] <;> decide

theorem Closes.not_isParam {b : Bool} {t : Atom} (ht : Closes b t) : ¬ t.IsParam := by
  rcases ht with ht | ⟨-, ht⟩
  · exact not_isParam_of ht (.inr (.inr (.inr rfl)))
  · exact not_isParam_of ht (.inr (.inr (.inl rfl)))

theorem stops_count {count : Option Atom} {o : Atom} {l : List Atom} (hcount : IsCount count)
    (ho : o.type = .opens) : Stops (count.toList ++ o :: l) := by
  cases count with
  | none => exact ⟨o, l, rfl, .inl (not_isParam_of ho (.inr (.inl rfl)))⟩
  | some n => exact ⟨n, o :: l, rfl, .inr ⟨(hcount n rfl).1, o, rfl, ho⟩⟩

theorem stops {b : Bool} {l : Line b} (h : l.Ok cmds) {t : Atom} (ht : Closes b t) (tl : List Atom) :
    Stops (l.flatten ++ t :: tl) := by
  cases l with
  | done => exact ⟨t, tl, rfl, .inl ht.not_isParam⟩
  | command c params rest => exact ⟨c, _, rfl, .inl (not_isParam_of h.1.1 (.inl rfl))⟩
  | group count o c body rest =>
    rw [flatten, List.append_assoc]
    exact stops_count h.1 h.2.1
  | openGroup count o body =>
    rw [flatten, List.append_assoc]
    exact stops_count h.1 h.2.1
  | list c params => exact ⟨c, _, rfl, .inl (not_isParam_of h.1.1 (.inl rfl))⟩

theorem ParamsOf.ne_terminator {c : Atom} {params next : List Atom} (h : ParamsOf c params next)
    (hc : c.type = .alpha) : ∀ a ∈ c :: params, a.type ≠ .terminator := by
  intro a ha
  rcases List.mem_cons.mp ha with rfl | ha
  · rw [hc]
    decide
  · cases h with
    | help _ hk =>
      rw [List.mem_singleton.mp ha, hk.1]
      decide
    | plain _ hparams =>
      rcases hparams a ha with h | h | h <;> rw [h] <;> decide

theorem paramAmount_eq {b : Bool} {c t : Atom} {params : List Atom} {rest : Line b}
    (h : ParamsOf c params rest.flatten) (hrest : rest.Ok cmds) (ht : Closes b t) (tl : List Atom) :
    paramAmount (c :: (params ++ (rest.flatten ++ t :: tl))) = some params.length := by
  cases h with
  | @help k _ hhelp hk =>
    have hflag : helpOn c ([k] ++ (rest.flatten ++ t :: tl)) = some true := by
      rw [helpOn, if_pos hhelp, List.singleton_append, List.head?_cons, Option.map_some,
        decide_eq_true hk]
    rw [paramAmount, hflag]
    rfl
  | plain hatoms hparams hhelp hlast =>
    -- the atom after the command for help is no command
    have hflag : helpOn c (params ++ (rest.flatten ++ t :: tl)) = some false := by
      unfold helpOn
      split
      · rename_i hc
        rw [← List.append_assoc]
        cases hhead : params ++ rest.flatten with
        | nil =>
          rw [List.nil_append, List.head?_cons, Option.map_some,
            decide_eq_false fun hk => ht.type_ne.1 hk.1]
        | cons k l =>
          rw [List.cons_append, List.head?_cons, Option.map_some,
            decide_eq_false (hhelp hc k (by rw [hhead]; rfl))]
      · rfl
    rw [paramAmount, hflag, Option.bind_eq_bind, Option.bind_some, if_neg (by decide), if_neg hatoms]
    refine countParams_eq hparams (stops hrest ht tl) fun n hn o ho hnum => ?_
    cases hflat : rest.flatten with
    | nil =>
      rw [hflat] at ho
      obtain rfl : t = o := Option.some.inj ho
      exact ht.type_ne.2
    | cons a l =>
      rw [hflat] at ho
      exact hlast n hn o (by rw [hflat]; exact ho) hnum

theorem paramAmount_list {c t : Atom} {params : List Atom} (hc : c.cmdId = cmdATOMS)
    (hparams : ∀ p ∈ params, p.type ≠ .terminator ∧ p.type ≠ .illegalChar)
    (ht : t.type = .terminator) (tl : List Atom) :
    paramAmount (c :: (params ++ t :: tl)) = some params.length := by
  have hflag : helpOn c (params ++ t :: tl) = some false := by
    rw [helpOn, if_neg (by rw [hc]; decide)]
  rw [paramAmount, hflag, Option.bind_eq_bind, Option.bind_some, if_neg (by decide), if_pos hc,
    countAtoms_eq hparams ht]

/-! ### Executing a line -/

/-- The index that is returned: behind a closing bracket, but at a terminator. -/
def ending (t : Atom) : ℕ := if t.type = .close then 1 else 0

theorem ending_terminator {t : Atom} (ht : t.type = .terminator) : ending t = 0 := by
  rw [ending, ht]
  rfl

theorem Closes.terminator {t : Atom} (ht : Closes true t) : t.type = .terminator :=
  ht.resolve_right fun h => Bool.noConfusion h.1

theorem list_ne_terminator {c : Atom} {params : List Atom} (hc : Known cmds c)
    (hparams : ∀ p ∈ params, p.type ≠ .terminator ∧ p.type ≠ .illegalChar) :
    ∀ a ∈ c :: params, a.type ≠ .terminator := by
  intro a ha
  rcases List.mem_cons.mp ha with rfl | ha
  · rw [hc.1]
    decide
  · exact (hparams a ha).1

/-- **A line is executed** as its syntax says if no group of it has the count 0. -/
theorem run {b : Bool} {l : Line b} (hok : l.Ok cmds) (hzero : l.NoZero)
    (hlen : l.flatten.length < maxArgCount) {s : ℕ} {t : Atom} {tl : List Atom}
    (h : atoms.drop s = l.flatten ++ t :: tl) (ht : Closes b t) :
    ∃ F, ∀ fuel, F ≤ fuel → ∀ fr : Frame, fr.idx = s → fr.count = 1 →
      fr.argsCopy.length = maxArgCount + 1 →
      doCmd cmds atoms fuel fr = some (s + l.flatten.length + ending t, l.events s) := by
  induction l generalizing s t tl with
  | done =>
    refine ⟨1, fun fuel hfuel fr hidx _ _ => ?_⟩
    obtain ⟨fuel, rfl⟩ := Nat.exists_eq_add_of_le' hfuel
    subst hidx
    exact doCmd_end h false ht
  | command c params rest ih =>
    obtain ⟨hc, hparams, hrest⟩ := hok
    rw [flatten, List.cons_append, List.append_assoc] at h
    rw [flatten, List.length_cons, List.length_append] at hlen
    obtain ⟨F, hF⟩ := @ih hrest hzero (by omega) (s + params.length + 1) t tl
      (by rw [Nat.add_assoc]; exact drop_add (c :: params) h rfl) ht
    refine ⟨F + 1, fun fuel hfuel fr hidx _ hcopy => ?_⟩
    obtain ⟨fuel, rfl⟩ := Nat.exists_eq_add_of_le' (show 1 ≤ fuel by omega)
    subst hidx
    obtain ⟨copy, hsame, hstep⟩ := doCmd_command h hc (paramAmount_eq hparams hrest ht tl)
      (hparams.ne_terminator hc.1) (by omega)
    rw [hstep, hF fuel (by omega) _ rfl rfl (hsame.trans hcopy), after_some, flatten,
      List.length_cons, List.length_append, events, List.singleton_append]
    congr 2
    omega
  | group count o c body rest ihbody ihrest =>
    obtain ⟨hcount, ho, hc, hbody, hrest⟩ := hok
    obtain ⟨htimes, hzbody, hzrest⟩ := hzero
    rw [flatten, List.append_assoc, List.cons_append] at h
    rw [flatten, List.length_append, List.length_cons, List.length_append, List.length_cons] at hlen
    have hopen := drop_add_succ h
    rw [List.append_assoc, List.cons_append] at hopen
    have hclose := drop_add_succ hopen
    obtain ⟨F₁, hF₁⟩ := ihbody hbody hzbody (by omega) hopen (.inr ⟨rfl, hc⟩)
    obtain ⟨F₂, hF₂⟩ := ihrest hrest hzrest (by omega) hclose ht
    refine ⟨max F₁ F₂ + 1 + count.toList.length, fun fuel hfuel fr hidx hone hcopy => ?_⟩
    obtain ⟨fuel, rfl⟩ := Nat.exists_eq_add_of_le' (show 1 + count.toList.length ≤ fuel by omega)
    subst hidx
    have hrun := hF₁ fuel (by omega) (.start (fr.idx + count.toList.length + 1)) rfl rfl
      List.length_replicate
    rw [ending, if_pos hc] at hrun
    have hthen := hF₂ fuel (by omega) ⟨_, 1, some (fr.idx + count.toList.length + 1 +
      body.flatten.length + 1), fr.argsCopy⟩ rfl rfl hcopy
    rw [← Nat.add_assoc, doCmd_group h hcount ho hone, repeatCmd_eq hrun, if_neg htimes]
    dsimp only [Option.bind_some]
    rw [hthen, after_some, after_some, flatten, List.length_append, List.length_cons,
      List.length_append, List.length_cons, events, List.append_assoc]
    congr 2
    omega
  | openGroup count o body ih =>
    obtain ⟨hcount, ho, hbody⟩ := hok
    obtain ⟨htimes, hzbody⟩ := hzero
    rw [flatten, List.append_assoc, List.cons_append] at h
    rw [flatten, List.length_append, List.length_cons] at hlen
    have hopen := drop_add_succ h
    obtain ⟨F, hF⟩ := ih hbody hzbody (by omega) hopen ht
    refine ⟨F + 2 + count.toList.length, fun fuel hfuel fr hidx hone hcopy => ?_⟩
    obtain ⟨fuel, rfl⟩ := Nat.exists_eq_add_of_le' (show 2 + count.toList.length ≤ fuel by omega)
    subst hidx
    have hrun := hF (fuel + 1) (by omega) (.start (fr.idx + count.toList.length + 1)) rfl rfl
      List.length_replicate
    have hend : ending t = 0 := ending_terminator ht.terminator
    rw [hend, Nat.add_zero] at hrun
    rw [show fuel + (2 + count.toList.length) = fuel + 1 + 1 + count.toList.length by omega,
      doCmd_group h hcount ho hone, repeatCmd_eq hrun, if_neg htimes, Option.bind_some,
      Option.bind_some, doCmd_end (drop_add _ hopen rfl) true ht, after_some, after_some, flatten,
      List.length_append, List.length_cons, events, List.append_nil]
    congr 2
    show fr.idx + count.toList.length + 1 + body.flatten.length + 0 + ending t = _
    omega
  | list c params =>
    obtain ⟨hc, hatoms, hparams⟩ := hok
    rw [flatten, List.cons_append] at h
    rw [flatten, List.length_cons] at hlen
    refine ⟨2, fun fuel hfuel fr hidx _ hcopy => ?_⟩
    obtain ⟨fuel, rfl⟩ := Nat.exists_eq_add_of_le' hfuel
    subst hidx
    obtain ⟨copy, -, hstep⟩ := doCmd_command h hc (paramAmount_list hatoms hparams ht.terminator tl)
      (list_ne_terminator hc hparams) (by omega)
    have hrest : atoms.drop (fr.idx + params.length + 1) = t :: tl := by
      rw [Nat.add_assoc]
      exact drop_add (c :: params) h rfl
    rw [hstep, doCmd_end hrest true ht, after_some, flatten, List.length_cons, events, List.append_nil]
    rfl

/-! ### Coming back from a line -/

/-- A line after some commands. -/
def wrap {b : Bool} (pre : List (Atom × List Atom)) (l : Line b) : Line b :=
  pre.foldr (fun p l => .command p.1 p.2 l) l

/-- The atoms of some commands. -/
def preAtoms (pre : List (Atom × List Atom)) : List Atom := pre.flatMap fun p => p.1 :: p.2

theorem wrap_command {b : Bool} (pre : List (Atom × List Atom)) (c : Atom) (params : List Atom)
    (l : Line b) : wrap (pre ++ [(c, params)]) l = wrap pre (.command c params l) := by
  rw [wrap, List.foldr_append]
  rfl

theorem flatten_wrap {b : Bool} (pre : List (Atom × List Atom)) (l : Line b) :
    (wrap pre l).flatten = preAtoms pre ++ l.flatten := by
  induction pre with
  | nil => rfl
  | cons p pre ih =>
    show p.1 :: (p.2 ++ (wrap pre l).flatten) = _
    rw [ih, preAtoms, preAtoms, List.flatMap_cons, List.cons_append, List.cons_append,
      List.append_assoc]

theorem ok_of_wrap {b : Bool} {pre : List (Atom × List Atom)} {l : Line b}
    (h : (wrap pre l).Ok cmds) : l.Ok cmds := by
  induction pre with
  | nil => exact h
  | cons p pre ih => exact ih h.2.2

theorem noZero_of_wrap {b : Bool} {pre : List (Atom × List Atom)} {l : Line b}
    (h : (wrap pre l).NoZero) : l.NoZero := by
  induction pre with
  | nil => exact h
  | cons p pre ih => exact ih h

theorem exists_of_after {es : List Event} {run : Option (ℕ × List Event)} {r : ℕ × List Event}
    (h : after es run = some r) : ∃ r', run = some r' ∧ r'.1 = r.1 := by
  obtain ⟨r', hr', rfl⟩ := Option.map_eq_some_iff.mp h
  exact ⟨r', hr', rfl⟩

/-- What is known where a run stands at the line `l`, after the commands `pre`, which begin at index `s`:
the last recursive call has returned `s`, or there was none. -/
structure Stands (cmds : List CmdDesc) (atoms : List Atom) {b : Bool}
    (pre : List (Atom × List Atom)) (l : Line b) (s : ℕ) (t : Atom) (tl : List Atom) (fr : Frame) :
    Prop where
  ok : (wrap pre l).Ok cmds
  length : (wrap pre l).flatten.length < maxArgCount
  drop : atoms.drop s = (wrap pre l).flatten ++ t :: tl
  closes : Closes b t
  idx : fr.idx = s + (preAtoms pre).length
  count : fr.count = 1
  copy : fr.argsCopy.length = maxArgCount + 1
  recur : fr.recur = none ∨ fr.recur = some s

theorem Stands.drop_idx {b : Bool} {pre : List (Atom × List Atom)} {l : Line b} {s : ℕ} {t : Atom}
    {tl : List Atom} {fr : Frame} (h : Stands cmds atoms pre l s t tl fr) :
    atoms.drop fr.idx = l.flatten ++ t :: tl := by
  have hdrop := h.drop
  rw [flatten_wrap, List.append_assoc] at hdrop
  rw [h.idx]
  exact drop_add _ hdrop rfl

theorem Stands.length_eq {b : Bool} {pre : List (Atom × List Atom)} {l : Line b} {s : ℕ} {t : Atom}
    {tl : List Atom} {fr : Frame} (h : Stands cmds atoms pre l s t tl fr) :
    fr.idx + l.flatten.length = s + (wrap pre l).flatten.length ∧ l.flatten.length < maxArgCount := by
  have hlen := h.length
  rw [flatten_wrap, List.length_append] at hlen
  rw [h.idx, flatten_wrap, List.length_append]
  omega

theorem Stands.command {b : Bool} {pre : List (Atom × List Atom)} {c : Atom} {params : List Atom}
    {rest : Line b} {s : ℕ} {t : Atom} {tl : List Atom} {fr : Frame}
    (h : Stands cmds atoms pre (.command c params rest) s t tl fr) {copy : List Atom}
    (hcopy : copy.length = fr.argsCopy.length) :
    Stands cmds atoms (pre ++ [(c, params)]) rest s t tl
      { fr with idx := fr.idx + params.length + 1, count := 1, argsCopy := copy } where
  ok := by rw [wrap_command]; exact h.ok
  length := by rw [wrap_command]; exact h.length
  drop := by rw [wrap_command]; exact h.drop
  closes := h.closes
  idx := by
    show fr.idx + params.length + 1 = _
    rw [h.idx, preAtoms, preAtoms, List.flatMap_append, List.length_append, List.flatMap_singleton,
      List.length_cons, Nat.add_assoc, Nat.add_assoc]
  count := rfl
  copy := hcopy.trans h.copy
  recur := h.recur

theorem Stands.again {b : Bool} {pre : List (Atom × List Atom)} {l : Line b} {s : ℕ} {t : Atom}
    {tl : List Atom} {fr : Frame} (h : Stands cmds atoms pre l s t tl fr) :
    Stands cmds atoms [] (wrap pre l) s t tl ⟨s, 1, some s, fr.argsCopy⟩ :=
  ⟨h.ok, h.length, h.drop, h.closes, rfl, rfl, h.copy, .inr rfl⟩

theorem group_some {fuel : ℕ} {fr : Frame} {count : Option Atom} {o : Atom} {l : List Atom}
    (h : atoms.drop fr.idx = count.toList ++ o :: l) (hcount : IsCount count)
    (ho : o.type = .opens) (hone : fr.count = 1) {r : ℕ × List Event}
    (hr : doCmd cmds atoms fuel fr = some r) :
    ∃ k < fuel, ∃ rep i r', repeatCmd (doCmd cmds atoms k (.start (fr.idx + count.toList.length + 1)))
        (times count) fr.recur = some rep ∧ rep.1 = some i ∧
      doCmd cmds atoms k ⟨i, 1, rep.1, fr.argsCopy⟩ = some r' ∧ r'.1 = r.1 := by
  obtain ⟨k, rfl⟩ : ∃ k, fuel = k + 1 + count.toList.length := by
    cases fuel with
    | zero => exact absurd hr (by simp [doCmd])
    | succ fuel =>
      cases count with
      | none => exact ⟨fuel, rfl⟩
      | some n =>
        rw [doCmd_numeric h (hcount n rfl).1] at hr
        obtain ⟨r', hr', -⟩ := exists_of_after hr
        cases fuel with
        | zero => exact absurd hr' (by simp [doCmd])
        | succ fuel => exact ⟨fuel, rfl⟩
  rw [doCmd_group h hcount ho hone] at hr
  obtain ⟨r₁, hr₁, hrr₁⟩ := exists_of_after hr
  obtain ⟨rep, hrep, hr₁⟩ := Option.bind_eq_some_iff.mp hr₁
  obtain ⟨i, hi, hr₁⟩ := Option.bind_eq_some_iff.mp hr₁
  obtain ⟨r₂, hr₂, hrr₂⟩ := exists_of_after hr₁
  exact ⟨k, by omega, rep, i, r₂, hrep, hi, hr₂, hrr₂.trans hrr₁⟩

/-- What a run of less than `fuel` steps that returns says about its line. -/
def Back (cmds : List CmdDesc) (atoms : List Atom) (fuel : ℕ) : Prop :=
  ∀ {b : Bool} (l : Line b) {pre : List (Atom × List Atom)} {s : ℕ} {t : Atom} {tl : List Atom}
    {fr : Frame}, Stands cmds atoms pre l s t tl fr → ∀ {k : ℕ}, k < fuel → ∀ {r : ℕ × List Event},
      doCmd cmds atoms k fr = some r → l.NoZero ∧ r.1 = fr.idx + l.flatten.length + ending t

/-- **A group** that is come back from has another count than 0: otherwise the index is used that the last
recursive call has returned, and the run is at a place before the group again. -/
theorem Back.group {fuel : ℕ} (hback : Back cmds atoms fuel) {b b' : Bool}
    {pre : List (Atom × List Atom)} {l : Line b} {s : ℕ} {t : Atom} {tl : List Atom} {fr : Frame}
    (hat : Stands cmds atoms pre l s t tl fr) {count : Option Atom} {o e : Atom} {body : Line b'}
    {el : List Atom} (h : atoms.drop fr.idx = count.toList ++ o :: (body.flatten ++ e :: el))
    (hcount : IsCount count) (ho : o.type = .opens) (hbody : body.Ok cmds) (he : Closes b' e)
    (hlen : body.flatten.length < maxArgCount) (hzero : l.NoZero → times count ≠ 0)
    {r : ℕ × List Event} (hr : doCmd cmds atoms fuel fr = some r) :
    times count ≠ 0 ∧ body.NoZero ∧ ∃ k < fuel, ∃ r', r'.1 = r.1 ∧ doCmd cmds atoms k
      ⟨fr.idx + count.toList.length + 1 + body.flatten.length + ending e, 1,
        some (fr.idx + count.toList.length + 1 + body.flatten.length + ending e),
        fr.argsCopy⟩ = some r' := by
  obtain ⟨k, hk, rep, i, r', hrep, hi, hr', hrr'⟩ := group_some h hcount ho hat.count hr
  by_cases htimes : times count = 0
  · rw [htimes] at hrep
    obtain rfl := Option.some.inj hrep
    rcases hat.recur with hnone | hsome
    · exact absurd (hnone.symm.trans hi) (by simp)
    · rw [hsome] at hi hr'
      obtain rfl := Option.some.inj hi
      exact absurd htimes (hzero (noZero_of_wrap (hback _ hat.again hk hr').1))
  · obtain ⟨e₁, he₁, hie⟩ := repeatCmd_some htimes hrep
    have hin : Stands cmds atoms [] body (fr.idx + count.toList.length + 1) e el
        (.start (fr.idx + count.toList.length + 1)) :=
      ⟨hbody, hlen, drop_add_succ h, he, rfl, rfl, List.length_replicate, .inl rfl⟩
    obtain ⟨hz, hend⟩ := hback body hin hk he₁
    rw [hie] at hi hr'
    obtain rfl := Option.some.inj hi
    rw [hend] at hr'
    exact ⟨htimes, hz, k, hk, r', hrr', hr'⟩

theorem runs_back (fuel : ℕ) : Back cmds atoms fuel := by
  induction fuel with
  | zero =>
    intro b l pre s t tl fr hat k hk
    exact absurd hk (Nat.not_lt_zero _)
  | succ fuel ih =>
  intro b l pre s t tl fr hat k hk r hr
  have hback : Back cmds atoms k := by
    intro b l pre s t tl fr hat j hj r hr
    exact ih l hat (by omega) hr
  have hdrop := hat.drop_idx
  have hlen := hat.length_eq.2
  have hok := ok_of_wrap hat.ok
  have hcopy := hat.copy
  obtain ⟨k, rfl⟩ : ∃ j, k = j + 1 := by
    cases k with
    | zero => exact absurd hr (by simp [doCmd])
    | succ k => exact ⟨k, rfl⟩
  cases l with
  | done =>
    rw [doCmd_end hdrop false hat.closes] at hr
    obtain rfl := Option.some.inj hr
    exact ⟨trivial, rfl⟩
  | command c params rest =>
    obtain ⟨hc, hparams, hrest⟩ := hok
    rw [flatten, List.cons_append, List.append_assoc] at hdrop
    rw [flatten, List.length_cons, List.length_append] at hlen
    obtain ⟨copy, hsame, hstep⟩ := doCmd_command hdrop hc
      (paramAmount_eq hparams hrest hat.closes tl) (hparams.ne_terminator hc.1) (by omega)
    rw [hstep] at hr
    obtain ⟨r', hr', hrr'⟩ := exists_of_after hr
    obtain ⟨hz, hend⟩ := hback rest (hat.command hsame) (Nat.lt_succ_self _) hr'
    refine ⟨hz, ?_⟩
    rw [← hrr', hend, flatten, List.length_cons, List.length_append]
    dsimp only
    omega
  | group count o c body rest =>
    obtain ⟨hcount, ho, hc, hbody, hrest⟩ := hok
    rw [flatten, List.append_assoc, List.cons_append, List.append_assoc, List.cons_append] at hdrop
    rw [flatten, List.length_append, List.length_cons, List.length_append, List.length_cons] at hlen
    obtain ⟨htimes, hzbody, j, hj, r', hrr', hr'⟩ := hback.group hat hdrop hcount ho hbody
      (.inr ⟨rfl, hc⟩) (by omega) (fun h => h.1) hr
    rw [ending, if_pos hc] at hr'
    have hclose := drop_add_succ (drop_add_succ hdrop)
    have hthen : Stands cmds atoms [] rest (fr.idx + count.toList.length + 1 + body.flatten.length + 1)
        t tl ⟨fr.idx + count.toList.length + 1 + body.flatten.length + 1, 1, some _, fr.argsCopy⟩ :=
      ⟨hrest, show rest.flatten.length < _ by omega, hclose, hat.closes, rfl, rfl, hat.copy, .inr rfl⟩
    obtain ⟨hzrest, hend⟩ := hback rest hthen hj hr'
    refine ⟨⟨htimes, hzbody, hzrest⟩, ?_⟩
    rw [← hrr', hend, flatten, List.length_append, List.length_cons, List.length_append,
      List.length_cons]
    dsimp only
    omega
  | openGroup count o body =>
    obtain ⟨hcount, ho, hbody⟩ := hok
    rw [flatten, List.append_assoc, List.cons_append] at hdrop
    rw [flatten, List.length_append, List.length_cons] at hlen
    obtain ⟨htimes, hzbody, j, hj, r', hrr', hr'⟩ := hback.group hat hdrop hcount ho hbody
      hat.closes (by omega) (fun h => h.1) hr
    rw [ending_terminator hat.closes.terminator, Nat.add_zero] at hr'
    obtain ⟨j, rfl⟩ : ∃ i, j = i + 1 := by
      cases j with
      | zero => exact absurd hr' (by simp [doCmd])
      | succ j => exact ⟨j, rfl⟩
    rw [doCmd_end (drop_add _ (drop_add_succ hdrop) rfl) true hat.closes] at hr'
    obtain rfl := Option.some.inj hr'
    refine ⟨⟨htimes, hzbody⟩, ?_⟩
    rw [← hrr', flatten, List.length_append, List.length_cons]
    show _ + ending t = _
    dsimp only
    omega
  | list c params =>
    obtain ⟨hc, hatoms, hparams⟩ := hok
    rw [flatten, List.cons_append] at hdrop
    rw [flatten, List.length_cons] at hlen
    obtain ⟨copy, -, hstep⟩ := doCmd_command hdrop hc
      (paramAmount_list hatoms hparams hat.closes.terminator tl) (list_ne_terminator hc hparams)
      (by omega)
    rw [hstep] at hr
    obtain ⟨r', hr', hrr'⟩ := exists_of_after hr
    have hrest : atoms.drop (fr.idx + params.length + 1) = t :: tl := by
      rw [Nat.add_assoc]
      exact drop_add (c :: params) hdrop rfl
    obtain ⟨k, rfl⟩ : ∃ i, k = i + 1 := by
      cases k with
      | zero => exact absurd hr' (by simp [doCmd])
      | succ k => exact ⟨k, rfl⟩
    rw [doCmd_end hrest true hat.closes] at hr'
    obtain rfl := Option.some.inj hr'
    refine ⟨trivial, ?_⟩
    rw [← hrr', flatten, List.length_cons]
    rfl

/-! ### What a line does -/

/-- The event is about atoms from `lo` to before `hi`. -/
def Within (lo hi : ℕ) : Event → Prop
  | .handle idx pa _ => lo ≤ idx ∧ idx + pa < hi
  | .count idx => lo ≤ idx ∧ idx < hi

theorem Within.mono {lo hi lo' hi' : ℕ} {e : Event} (h : Within lo hi e) (hlo : lo' ≤ lo)
    (hhi : hi ≤ hi') : Within lo' hi' e := by
  cases e with
  | handle idx pa args =>
    obtain ⟨h₁, h₂⟩ := h
    exact ⟨hlo.trans h₁, h₂.trans_le hhi⟩
  | count idx =>
    obtain ⟨h₁, h₂⟩ := h
    exact ⟨hlo.trans h₁, h₂.trans_le hhi⟩

theorem mem_replicate_flatten {α : Type*} {n : ℕ} {l : List α} {a : α}
    (h : a ∈ (List.replicate n l).flatten) : a ∈ l := by
  obtain ⟨l', hl', ha⟩ := List.mem_flatten.mp h
  rwa [List.eq_of_mem_replicate hl'] at ha

theorem mem_count {count : Option Atom} {s : ℕ} {e : Event}
    (h : e ∈ count.toList.map fun _ => Event.count s) : e = .count s ∧ count.toList.length = 1 := by
  obtain ⟨n, hn, rfl⟩ := List.mem_map.mp h
  cases count with
  | none => simp at hn
  | some m => exact ⟨rfl, rfl⟩

theorem within_events {b : Bool} (l : Line b) {s : ℕ} {e : Event} (h : e ∈ l.events s) :
    Within s (s + l.flatten.length) e := by
  induction l generalizing s with
  | done => exact absurd h List.not_mem_nil
  | command c params rest ih =>
    rw [flatten, List.length_cons, List.length_append]
    rcases List.mem_cons.mp h with rfl | h
    · exact ⟨le_rfl, by omega⟩
    · exact (ih h).mono (by omega) (by omega)
  | group count o c body rest ihbody ihrest =>
    rw [flatten, List.length_append, List.length_cons, List.length_append, List.length_cons]
    rcases List.mem_append.mp h with h | h
    · rcases List.mem_append.mp h with h | h
      · obtain ⟨rfl, hone⟩ := mem_count h
        exact ⟨le_rfl, by omega⟩
      · exact (ihbody (mem_replicate_flatten h)).mono (by omega) (by omega)
    · exact (ihrest h).mono (by omega) (by omega)
  | openGroup count o body ih =>
    rw [flatten, List.length_append, List.length_cons]
    rcases List.mem_append.mp h with h | h
    · obtain ⟨rfl, hone⟩ := mem_count h
      exact ⟨le_rfl, by omega⟩
    · exact (ih (mem_replicate_flatten h)).mono (by omega) (by omega)
  | list c params =>
    rw [List.mem_singleton.mp h, flatten, List.length_cons]
    exact ⟨le_rfl, by omega⟩

/-- No parameter of a command is read as a repeat count. -/
def Apart (es : List Event) : Prop :=
  ∀ i pa args j, Event.handle i pa args ∈ es → Event.count j ∈ es → ¬ (i < j ∧ j ≤ i + pa)

theorem Apart.append {es es' : List Event} (h : Apart es) (h' : Apart es') (lo mid hi : ℕ)
    (hin : ∀ e ∈ es, Within lo mid e) (hin' : ∀ e ∈ es', Within mid hi e) : Apart (es ++ es') := by
  intro i pa args j hi hj
  rcases List.mem_append.mp hi with hi | hi <;> rcases List.mem_append.mp hj with hj | hj
  · exact h i pa args j hi hj
  · have hi' : lo ≤ i ∧ i + pa < mid := hin _ hi
    have hj' : mid ≤ j ∧ j < _ := hin' _ hj
    omega
  · have hi' : mid ≤ i ∧ i + pa < _ := hin' _ hi
    have hj' : lo ≤ j ∧ j < mid := hin _ hj
    omega
  · exact h' i pa args j hi hj

theorem apart_count (count : Option Atom) (s : ℕ) :
    Apart (count.toList.map fun _ => Event.count s) := by
  intro i pa args j hi
  exact absurd (mem_count hi).1 (by simp)

theorem Apart.replicate {es : List Event} (h : Apart es) (n : ℕ) :
    Apart (List.replicate n es).flatten :=
  fun i pa args j hi hj => h i pa args j (mem_replicate_flatten hi) (mem_replicate_flatten hj)

theorem apart_group {b : Bool} {count : Option Atom} {body : Line b} {s : ℕ}
    (h : Apart (body.events (s + count.toList.length + 1))) :
    Apart (count.toList.map (fun _ => Event.count s) ++
      (List.replicate (times count) (body.events (s + count.toList.length + 1))).flatten) := by
  refine (apart_count count s).append (h.replicate _) s (s + count.toList.length)
    (s + count.toList.length + 1 + body.flatten.length) (fun e he => ?_) fun e he => ?_
  · obtain ⟨rfl, hone⟩ := mem_count he
    exact ⟨le_rfl, by omega⟩
  · exact (within_events body (mem_replicate_flatten he)).mono (by omega) le_rfl

theorem apart_events {b : Bool} (l : Line b) (s : ℕ) : Apart (l.events s) := by
  induction l generalizing s with
  | done =>
    intro i pa args j hi
    exact absurd hi List.not_mem_nil
  | command c params rest ih =>
    have hown : Apart [.handle s params.length (some (c :: params))] := by
      intro i pa args j _ hj
      exact absurd (List.mem_singleton.mp hj) (by simp)
    refine hown.append (ih _) s (s + params.length + 1)
      (s + params.length + 1 + rest.flatten.length) (fun e he => ?_) fun e he => within_events rest he
    rw [List.mem_singleton.mp he]
    exact ⟨le_rfl, by omega⟩
  | group count o c body rest ihbody ihrest =>
    refine (apart_group (ihbody _)).append (ihrest _) s
      (s + count.toList.length + 1 + body.flatten.length + 1)
      (s + count.toList.length + 1 + body.flatten.length + 1 + rest.flatten.length)
      (fun e he => ?_) fun e he => within_events rest he
    rcases List.mem_append.mp he with he | he
    · obtain ⟨rfl, hone⟩ := mem_count he
      exact ⟨le_rfl, by omega⟩
    · exact (within_events body (mem_replicate_flatten he)).mono (by omega) (by omega)
  | openGroup count o body ih => exact apart_group (ih _)
  | list c params =>
    intro i pa args j _ hj
    exact absurd (List.mem_singleton.mp hj) (by simp)

/-- What the handlers receive. -/
def handled (es : List Event) : List (Option (List Atom)) :=
  es.filterMap fun
    | .handle _ _ args => some args
    | .count _ => none

theorem handled_append (es es' : List Event) : handled (es ++ es') = handled es ++ handled es' :=
  List.filterMap_append

theorem handled_replicate (n : ℕ) (es : List Event) :
    handled (List.replicate n es).flatten = (List.replicate n (handled es)).flatten := by
  induction n with
  | zero => rfl
  | succ n ih =>
    rw [List.replicate_succ, List.flatten_cons, handled_append, ih, List.replicate_succ,
      List.flatten_cons]

theorem handled_count (count : Option Atom) (s : ℕ) :
    handled (count.toList.map fun _ => Event.count s) = [] := by
  cases count <;> rfl

theorem map_replicate_flatten {α β : Type*} (f : α → β) (n : ℕ) (l : List α) :
    (List.replicate n l).flatten.map f = (List.replicate n (l.map f)).flatten := by
  rw [List.map_flatten, List.map_replicate]

theorem handled_events {b : Bool} (l : Line b) (s : ℕ) : handled (l.events s) = l.calls.map some := by
  induction l generalizing s with
  | done => rfl
  | command c params rest ih =>
    show some (c :: params) :: handled (rest.events _) = _
    rw [ih]
    rfl
  | group count o c body rest ihbody ihrest =>
    rw [events, handled_append, handled_append, handled_count, handled_replicate, ihbody, ihrest,
      calls, List.map_append, map_replicate_flatten, List.nil_append]
  | openGroup count o body ih =>
    rw [events, handled_append, handled_count, handled_replicate, ih, calls, map_replicate_flatten,
      List.nil_append]
  | list c params => rfl

end Line

open Line

/-- **A command line is executed** as its syntax says, every handler with its own atom, its parameters and
a terminator, exactly when no group of it has the count 0. -/
theorem doCmd_unrolls_iff {cmds : List CmdDesc} {b : Bool} {l : Line b} (hok : l.Ok cmds)
    (hlen : l.flatten.length ≤ maxArgCount - 1) {t : Atom} (ht : t.type = .terminator)
    (unused : List Atom) :
    (∃ fuel idx es, doCmd cmds (l.flatten ++ t :: unused) fuel (.start 0) = some (idx, es) ∧
      handled es = l.calls.map some ∧ Apart es) ↔ l.NoZero := by
  have hmax : l.flatten.length < maxArgCount := Nat.lt_of_le_pred (by decide) hlen
  constructor
  · rintro ⟨fuel, idx, es, hrun, -⟩
    have hat : Stands cmds (l.flatten ++ t :: unused) [] l 0 t unused (.start 0) :=
      ⟨hok, hmax, rfl, .inl ht, rfl, rfl, List.length_replicate, .inl rfl⟩
    exact (runs_back (fuel + 1) l hat (Nat.lt_succ_self _) hrun).1
  · intro hzero
    obtain ⟨F, hF⟩ := @run cmds (l.flatten ++ t :: unused) b l hok hzero hmax 0 t unused rfl (.inl ht)
    exact ⟨F, _, _, hF F le_rfl (.start 0) rfl rfl List.length_replicate, handled_events l 0,
      apart_events l 0⟩

/-- The command `en`. -/
def enable : List CmdDesc := [⟨bytes "en", 11⟩]

/-- An atom of the line, with its value or its command. -/
def atomOf (type : AtomType) (val : ℤ) (cmdId : ℕ) : Atom := { Atom.ofType type with val, cmdId }

/-- The line `n ( en 7 )`. -/
def loopLine (n : ℤ) : Line false :=
  .group (some (atomOf .numeric n 0)) (Atom.ofType .opens) (Atom.ofType .close)
    (.command (atomOf .alpha 0 11) [atomOf .numeric 7 0] .done) .done

theorem loopLine_ok {n : ℤ} (hn : 0 ≤ n) : (loopLine n).Ok enable := by
  refine ⟨?_, rfl, rfl, ⟨⟨rfl, rfl⟩, .plain (by decide) ?_ (fun h => absurd h (by decide)) ?_, trivial⟩,
    trivial⟩
  · intro a ha
    obtain rfl := Option.some.inj ha
    exact ⟨rfl, hn⟩
  · intro p hp
    rw [List.mem_singleton.mp hp]
    exact .inl rfl
  · intro a _ o ho
    exact absurd ho (by simp [flatten])

/-- The line `2 ( en 7 )`. -/
theorem doCmd_unrolls_iff_twice :
    (∃ fuel idx es, doCmd enable ((loopLine 2).flatten ++ Atom.ofType .terminator :: []) fuel
        (.start 0) = some (idx, es) ∧
      handled es = (loopLine 2).calls.map some ∧ Apart es) ↔ (loopLine 2).NoZero :=
  doCmd_unrolls_iff (loopLine_ok (by decide)) (by decide) rfl []

/-- **The line `0 ( en 7 )`**: the index behind the group is not known. -/
theorem zero_count_astray :
    ¬ ∃ fuel idx es, doCmd enable ((loopLine 0).flatten ++ Atom.ofType .terminator :: []) fuel
        (.start 0) = some (idx, es) ∧
      handled es = (loopLine 0).calls.map some ∧ Apart es := by
  rintro ⟨fuel, idx, es, hrun, -⟩
  have hnone : doCmd enable ((loopLine 0).flatten ++ Atom.ofType .terminator :: []) fuel (.start 0) =
      none := by
    match fuel with
    | 0 => rfl
    | 1 => rfl
    | fuel + 2 => rfl
  rw [hnone] at hrun
  exact absurd hrun (by simp)

end KernelModules.Utils.Extest
