import Chip8.Proofs.DebuggerHistory

namespace Chip8.Debugger

open Text Time

def Looks (verb : Verb) (argument : Text) : Prop :=
  verb ∈ [.status, .registers, .memory, .program, .screen, .help] ∨ verb = .mark ∧ argument = []

inductive Rejects : Verb → Text → Item → Prop
  | count {verb : Verb} {argument : Text} {e : NumeralFault} (counts : verb = .run ∨ verb = .step)
    (given : argument ≠ []) (unread : readInt 10 argument = .error e) :
    Rejects verb argument (red "Invalid step count")
  | seed {argument : Text} {e : NumeralFault} (given : argument ≠ [])
    (unread : readInt 10 argument = .error e) : Rejects .reset argument (red "Invalid seed")
  | mark {argument : Text} {e : String} (given : argument ≠ [])
    (unread : readAddress argument = .error e) : Rejects .mark argument (red "Invalid address")
  | unaddressed : Rejects .delete [] (red "Please specify breakpoint address")
  | delete {argument : Text} {e : String} (given : argument ≠ [])
    (unread : readAddress argument = .error e) : Rejects .delete argument (red "Invalid address")
  | start {argument a : Text} {rest : List Text} {e : String} (split : words argument = a :: rest)
    (unread : readAddress a = .error e) : Rejects .memory argument (red "Invalid address or count")
  | length {argument a n : Text} {rest : List Text} {start : Int} {e : NumeralFault}
    (split : words argument = a :: n :: rest) (address : readAddress a = .ok start)
    (unread : readInt 10 n = .error e) : Rejects .memory argument (red "Invalid address or count")
  | short {argument : Text} (few : (words argument).length < 3) :
    Rejects .set argument Session.usage
  | value {argument form name value : Text} {rest : List Text} {e : String}
    (split : words argument = form :: name :: value :: rest) (unread : readAddress value = .error e) :
    Rejects .set argument (red ("Error: " ++ e))
  | register {argument name value : Text} {rest : List Text} {v : Int} {e : String}
    (split : words argument = "reg".toList :: name :: value :: rest)
    (read : readAddress value = .ok v) (unread : Session.readRegister name = .error e) :
    Rejects .set argument (red ("Error: " ++ e))
  | cell {argument name value : Text} {rest : List Text} {v : Int} {e : String}
    (split : words argument = "mem".toList :: name :: value :: rest)
    (read : readAddress value = .ok v) (unread : readAddress name = .error e) :
    Rejects .set argument (red ("Error: " ++ e))
  | form {argument form name value : Text} {rest : List Text} {v : Int}
    (split : words argument = form :: name :: value :: rest) (read : readAddress value = .ok v)
    (register : form ≠ "reg".toList) (cell : form ≠ "mem".toList) :
    Rejects .set argument Session.usage

theorem Looks.needs_machine {verb : Verb} {argument : Text} (h : Looks verb argument)
    (helpless : verb ≠ .help) : verb ∉ [.load, .reload, .quit, .exit, .help] := by
  rcases h with hverb | ⟨rfl, -⟩
  · revert hverb helpless
    cases verb <;> decide
  · decide

theorem Rejects.needs_machine {verb : Verb} {argument : Text} {item : Item}
    (h : Rejects verb argument item) : verb ∉ [.load, .reload, .quit, .exit, .help] := by
  cases h with
  | count counts => rcases counts with rfl | rfl <;> decide
  | _ => decide

theorem readSpan_eq_error {ws : List Text} {start length : Int} {message : String} :
    readSpan ws start length = .error message ↔
      (∃ a rest, ws = a :: rest ∧ readAddress a = .error message) ∨
      ∃ a n rest v e, ws = a :: n :: rest ∧ readAddress a = .ok v ∧ readInt 10 n = .error e ∧
        message = e.message 10 n := by
  cases ws with
  | nil => simp [readSpan]
  | cons a ws =>
    cases ws with
    | nil => simp [readSpan, Except.bind_eq_error, pure, Except.pure]
    | cons n rest =>
      simp only [readSpan, Except.bind_eq_error, Except.mapError_eq_error, pure, Except.pure]
      constructor
      · rintro (h | ⟨v, hv, ⟨e, he, rfl⟩ | ⟨_, -, ⟨⟩⟩⟩)
        · exact .inl ⟨a, n :: rest, rfl, h⟩
        · exact .inr ⟨a, n, rest, v, e, rfl, hv, he, rfl⟩
      · rintro (⟨_, _, ⟨⟩, h⟩ | ⟨_, _, _, v, e, ⟨⟩, hv, he, rfl⟩)
        · exact .inl h
        · exact .inr ⟨v, hv, .inl ⟨e, he, rfl⟩⟩

theorem boxed_ne_red {color : String} (h : color.toList[0]? ≠ some 'r') (text other : String) :
    boxed color text ≠ red other := by
  intro hbox
  have htext := congrArg (fun t : String => t.toList[1]?) (Item.line.inj hbox)
  simp only [String.toList_append] at htext
  cases hcolor : color.toList with
  | nil => simp [hcolor] at htext
  | cons c rest =>
    rw [hcolor] at h
    simp [hcolor] at htext
    simp [htext] at h

namespace Session

variable {κ τ : Type} {s : Session κ τ} {m : Machine κ τ} {argument : Text} {verb : Verb}
  {text : String} {item : Item}

theorem settle_of_machine (held : s.machine = some m) (answer : Answer) :
    settle (s, answer) = ({ s with machine := some { m with effects := #[] } },
      { answer with logged := answer.logged ++ m.takeLog.1 }) := by
  rw [settle, held]
  rfl

theorem printed_settle (r : Session κ τ × Answer) : (settle r).2.printed = r.2.printed := by
  rw [settle]
  split <;> rfl

theorem optionalInt_eq_none : optionalInt argument = none ↔
    argument ≠ [] ∧ ∃ e, readInt 10 argument = .error e := by
  rw [optionalInt]
  split_ifs with h
  · simp [h]
  · cases readInt 10 argument <;> simp [h, Except.toOption]

theorem readAssignment_eq_error {form name : Text} {v : Int} {e : String} :
    readAssignment form name v = .error e ↔
      form = "reg".toList ∧ readRegister name = .error e ∨
      form = "mem".toList ∧ readAddress name = .error e := by
  rw [readAssignment]
  split_ifs with hreg hmem
  · simp [hreg, Except.bind_eq_error, pure, Except.pure]
  · simp [hmem, Except.bind_eq_error, pure, Except.pure]
  · constructor
    · intro h
      cases h
    · rintro (⟨h, -⟩ | ⟨h, -⟩)
      · exact absurd h hreg
      · exact absurd h hmem

theorem readAssignment_eq_none {form name : Text} {v : Int} :
    readAssignment form name v = .ok none ↔ form ≠ "reg".toList ∧ form ≠ "mem".toList := by
  rw [readAssignment]
  split_ifs with hreg hmem
  · simp [hreg, Except.bind_eq_ok, pure, Except.pure]
  · simp [hmem, Except.bind_eq_ok, pure, Except.pure]
  · exact iff_of_true rfl ⟨hreg, hmem⟩

section Assignments

variable {form name value : Text} {rest : List Text} {v : Int} {e : String}

theorem set_of_short (few : (words argument).length < 3) :
    s.set m argument = (s, { printed := [usage] }) := by
  rw [set]
  split
  · rename_i split
    simp only [split, List.length_cons] at few
    omega
  · rfl

variable (split : words argument = form :: name :: value :: rest)

include split

theorem set_of_value (unread : readAddress value = .error e) :
    s.set m argument = (s, { printed := [red ("Error: " ++ e)] }) := by
  simp only [set, split, unread]
  rfl

variable (read : readAddress value = .ok v)

include read

theorem set_of_error (unread : readAssignment form name v = .error e) :
    s.set m argument = (s, { printed := [red ("Error: " ++ e)] }) := by
  simp only [set, split, read, bind, Except.bind, unread]

theorem set_of_none (other : readAssignment form name v = .ok none) :
    s.set m argument = (s, { printed := [usage] }) := by
  simp only [set, split, read, bind, Except.bind, other]
  rfl

theorem set_of_some {target : Target} {line : String}
    (assigns : readAssignment form name v = .ok (some (target, line))) :
    s.set m argument =
      ({ s with machine := some (assign m v target) }, { printed := [green line] }) := by
  simp only [set, split, read, bind, Except.bind, assigns]
  rfl

end Assignments

theorem not_complains_executed (printed : List Item) (fault : Option StepFault) :
    (s.executed m printed fault).2.printed ≠ [red text] := by
  have hpanel : statusPanel m ≠ red text := Item.noConfusion
  intro h
  cases fault with
  | none =>
    have hlast := congrArg List.getLast? h
    rw [executed, List.getLast?_concat] at hlast
    exact hpanel (Option.some.inj hlast)
  | some fault =>
    rw [executed] at h
    split_ifs at h
    · have hlast := congrArg List.getLast? h
      exact hpanel (Option.some.inj hlast)

theorem rejects_of_mark (complains : (s.mark m argument).2.printed = [red text]) :
    Rejects .mark argument (red text) := by
  rw [mark] at complains
  split_ifs at complains with given
  · have htable : breakpointTable m = red text := List.singleton_inj.mp complains
    rw [breakpointTable] at htable
    split_ifs at htable
    · exact absurd htable (boxed_ne_red (by decide) _ _)
    · cases htable
  · cases haddress : readAddress argument with
    | error e =>
      rw [haddress] at complains
      rw [← List.singleton_inj.mp complains]
      exact .mark given haddress
    | ok a =>
      rw [haddress] at complains
      exact absurd (List.singleton_inj.mp complains) (boxed_ne_red (by decide) _ _)

theorem rejects_of_delete (complains : (s.delete m argument).2.printed = [red text]) :
    Rejects .delete argument (red text) := by
  rw [delete] at complains
  split_ifs at complains with given
  · rw [← List.singleton_inj.mp complains, given]
    exact .unaddressed
  · cases haddress : readAddress argument with
    | error e =>
      rw [haddress] at complains
      rw [← List.singleton_inj.mp complains]
      exact .delete given haddress
    | ok a =>
      rw [haddress] at complains
      exact absurd (List.singleton_inj.mp complains) (boxed_ne_red (by decide) _ _)

theorem rejects_of_memory (complains : (s.memory m argument).2.printed = [red text]) :
    Rejects .memory argument (red text) := by
  rw [memory] at complains
  cases hspan : readSpan (words argument) s.dumpAddress s.dumpCount with
  | error e =>
    rw [hspan] at complains
    rw [← List.singleton_inj.mp complains]
    rcases readSpan_eq_error.mp hspan with
      ⟨a, rest, split, unread⟩ | ⟨a, n, rest, v, e, split, address, unread, -⟩
    · exact .start split unread
    · exact .length split address unread
  | ok span =>
    rw [hspan] at complains
    cases complains

theorem rejects_of_short (few : (words argument).length < 3)
    (complains : (s.set m argument).2.printed = [red text]) : Rejects .set argument (red text) := by
  rw [set_of_short few] at complains
  rw [← List.singleton_inj.mp complains]
  exact .short few

theorem rejects_of_set (complains : (s.set m argument).2.printed = [red text]) :
    Rejects .set argument (red text) := by
  rcases split : words argument with _ | ⟨form, _ | ⟨name, _ | ⟨value, rest⟩⟩⟩
  · exact rejects_of_short (by simp [split]) complains
  · exact rejects_of_short (by simp [split]) complains
  · exact rejects_of_short (by simp [split]) complains
  · cases read : readAddress value with
    | error e =>
      rw [set_of_value split read] at complains
      rw [← List.singleton_inj.mp complains]
      exact .value split read
    | ok v =>
      cases assignment : readAssignment form name v with
      | error e =>
        rw [set_of_error split read assignment] at complains
        rw [← List.singleton_inj.mp complains]
        rcases readAssignment_eq_error.mp assignment with ⟨rfl, unread⟩ | ⟨rfl, unread⟩
        · exact .register split read unread
        · exact .cell split read unread
      | ok target =>
        cases target with
        | none =>
          rw [set_of_none split read assignment] at complains
          obtain ⟨register, cell⟩ := readAssignment_eq_none.mp assignment
          rw [← List.singleton_inj.mp complains]
          exact .form split read register cell
        | some target =>
          rw [set_of_some split read assignment] at complains
          exact absurd (List.singleton_inj.mp complains) (boxed_ne_red (by decide) _ _)

variable [Measure τ]

theorem rejects_of_reset (complains : (s.reset m argument).2.printed = [red text]) :
    Rejects .reset argument (red text) := by
  rw [reset] at complains
  cases hseed : optionalInt argument with
  | none =>
    rw [hseed] at complains
    obtain ⟨given, e, unread⟩ := optionalInt_eq_none.mp hseed
    rw [← List.singleton_inj.mp complains]
    exact .seed given unread
  | some seed =>
    rw [hseed] at complains
    cases complains

variable [Clock κ τ]

theorem act_of_rejects (h : Rejects verb argument item) (fuel : Nat) :
    s.act m fuel argument verb = some (s, { printed := [item] }) := by
  cases h with
  | count counts given unread =>
    have hcount := optionalInt_eq_none.mpr ⟨given, _, unread⟩
    rcases counts with rfl | rfl
    · rw [act, run, hcount]
    · rw [act, step, hcount]
  | seed given unread => rw [act, reset, optionalInt_eq_none.mpr ⟨given, _, unread⟩]
  | mark given unread => rw [act, mark, if_neg given, unread]
  | unaddressed => rfl
  | delete given unread => rw [act, delete, if_neg given, unread]
  | start split unread => rw [act, memory, readSpan_eq_error.mpr (.inl ⟨_, _, split, unread⟩)]
  | length split address unread =>
    rw [act, memory, readSpan_eq_error.mpr (.inr ⟨_, _, _, _, _, split, address, unread, rfl⟩)]
  | short few => rw [act, set_of_short few]
  | value split unread => rw [act, set_of_value split unread]
  | register split read unread =>
    rw [act, set_of_error split read (readAssignment_eq_error.mpr (.inl ⟨rfl, unread⟩))]
  | cell split read unread =>
    rw [act, set_of_error split read (readAssignment_eq_error.mpr (.inr ⟨rfl, unread⟩))]
  | form split read register cell =>
    rw [act, set_of_none split read (readAssignment_eq_none.mpr ⟨register, cell⟩)]

theorem rejects_of_run {fuel : Nat} {r : Session κ τ × Answer}
    (answered : s.run m fuel argument = some r) (complains : r.2.printed = [red text]) :
    Rejects .run argument (red text) := by
  rw [run] at answered
  cases hmax : optionalInt argument with
  | none =>
    rw [hmax] at answered
    cases answered
    obtain ⟨given, e, unread⟩ := optionalInt_eq_none.mp hmax
    rw [← List.singleton_inj.mp complains]
    exact .count (.inl rfl) given unread
  | some max =>
    rw [hmax] at answered
    obtain ⟨⟨n, result⟩, -, rfl⟩ := Option.map_eq_some_iff.mp answered
    cases result with
    | ok reason => exact absurd complains (not_complains_executed _ _)
    | error fault => exact absurd complains (not_complains_executed _ _)

theorem rejects_of_step (complains : (s.step m argument).2.printed = [red text]) :
    Rejects .step argument (red text) := by
  rw [step] at complains
  cases hcount : optionalInt argument with
  | none =>
    rw [hcount] at complains
    obtain ⟨given, e, unread⟩ := optionalInt_eq_none.mp hcount
    rw [← List.singleton_inj.mp complains]
    exact .count (.inr rfl) given unread
  | some count =>
    rw [hcount] at complains
    exact absurd complains (not_complains_executed _ _)

theorem act_of_looks (looks : Looks verb argument) (h : verb ≠ .help) (fuel : Nat) :
    ∃ dumpAddress dumpCount answer,
      s.act m fuel argument verb = some ({ s with dumpAddress, dumpCount }, answer) ∧
      (verb ≠ .memory → dumpAddress = s.dumpAddress ∧ dumpCount = s.dumpCount) := by
  rcases looks with hverb | ⟨rfl, rfl⟩
  · simp only [List.mem_cons, List.not_mem_nil, or_false] at hverb
    rcases hverb with rfl | rfl | rfl | rfl | rfl | rfl
    · exact ⟨_, _, _, rfl, fun _ => ⟨rfl, rfl⟩⟩
    · exact ⟨_, _, _, rfl, fun _ => ⟨rfl, rfl⟩⟩
    · rw [act, memory]
      cases readSpan (words argument) s.dumpAddress s.dumpCount with
      | error e => exact ⟨_, _, _, rfl, fun _ => ⟨rfl, rfl⟩⟩
      | ok span => exact ⟨span.1, span.2, _, rfl, fun other => absurd rfl other⟩
    · rw [act, listing]
      split <;> exact ⟨_, _, _, rfl, fun _ => ⟨rfl, rfl⟩⟩
    · exact ⟨_, _, _, rfl, fun _ => ⟨rfl, rfl⟩⟩
    · exact absurd rfl h
  · exact ⟨_, _, _, rfl, fun _ => ⟨rfl, rfl⟩⟩

theorem perform_of_act (held : s.machine = some m) (files : Storage.Files) (fuel : Nat)
    (h : verb ∉ [.load, .reload, .quit, .exit, .help]) :
    s.perform files fuel (.command verb argument) = (s.act m fuel argument verb).map settle := by
  rw [perform_of_machine s files fuel argument h, held]

theorem rejects_of_act (hverb : verb ∈ [.run, .step, .reset, .mark, .delete, .memory, .set])
    {fuel : Nat} {r : Session κ τ × Answer} (answered : s.act m fuel argument verb = some r)
    (complains : r.2.printed = [red text]) : Rejects verb argument (red text) := by
  simp only [List.mem_cons, List.not_mem_nil, or_false] at hverb
  rcases hverb with rfl | rfl | rfl | rfl | rfl | rfl | rfl
  · exact rejects_of_run answered complains
  all_goals cases answered
  · exact rejects_of_step complains
  · exact rejects_of_reset complains
  · exact rejects_of_mark complains
  · exact rejects_of_delete complains
  · exact rejects_of_memory complains
  · exact rejects_of_set complains

theorem perform_keeps (held : s.machine = some m) (files : Storage.Files) (fuel : Nat)
    (verb : Verb) (argument : Text) :
    (Looks verb argument → ∃ effects dumpAddress dumpCount answer,
      s.perform files fuel (.command verb argument) =
        some ({ s with machine := some { m with effects }, dumpAddress, dumpCount }, answer) ∧
      (verb ≠ .memory → dumpAddress = s.dumpAddress ∧ dumpCount = s.dumpCount)) ∧
    (∀ item, Rejects verb argument item → ∃ effects answer,
      s.perform files fuel (.command verb argument) =
        some ({ s with machine := some { m with effects } }, answer) ∧ answer.printed = [item]) ∧
    (verb ∈ [.run, .step, .reset, .mark, .delete, .memory, .set] → ∀ r text,
      s.perform files fuel (.command verb argument) = some r → r.2.printed = [red text] →
      Rejects verb argument (red text)) := by
  refine ⟨fun looks => ?_, fun item rejects => ?_, fun hverb r text answered complains => ?_⟩
  · by_cases h : verb = .help
    · rw [h]
      refine ⟨m.effects, s.dumpAddress, s.dumpCount, help argument, ?_, fun _ => ⟨rfl, rfl⟩⟩
      rw [← held]
      rfl
    · obtain ⟨dumpAddress, dumpCount, answer, hact, hdump⟩ := act_of_looks (s := s) looks h fuel
      rw [perform_of_act held files fuel (looks.needs_machine h), hact, Option.map_some]
      have hsettle := settle_of_machine (s := { s with dumpAddress, dumpCount }) held answer
      exact ⟨#[], dumpAddress, dumpCount, _, congrArg some hsettle, hdump⟩
  · rw [perform_of_act held files fuel rejects.needs_machine, act_of_rejects rejects,
      Option.map_some, settle_of_machine held]
    exact ⟨#[], _, rfl, rfl⟩
  · have needs : verb ∉ [.load, .reload, .quit, .exit, .help] := by
      clear answered
      revert verb
      decide
    rw [perform_of_act held files fuel needs] at answered
    obtain ⟨r', hact, rfl⟩ := Option.map_eq_some_iff.mp answered
    rw [printed_settle] at complains
    exact rejects_of_act hverb hact complains

theorem perform_keeps_mistyped :
    ∃ (s : Session (VirtualClock Float) Float) (m : Machine (VirtualClock Float) Float),
      s.machine = some m ∧
      (∃ effects dumpAddress dumpCount answer,
        s.perform [] 0 (.command .memory "$21_0 ٣".toList) =
          some ({ s with machine := some { m with effects }, dumpAddress, dumpCount }, answer)) ∧
      (∃ effects answer,
        s.perform [] 0 (.command .memory "$210 1O".toList) =
          some ({ s with machine := some { m with effects } }, answer) ∧
        answer.printed = [red "Invalid address or count"]) ∧
      (∃ r, s.perform [] 0 (.command .step "x".toList) = some r ∧
        r.2.printed = [red "Invalid step count"]) ∧
      Rejects .step "x".toList (red "Invalid step count") := by
  let s : Session (VirtualClock Float) Float :=
    ((new (some 7) (.start 0 0) default).load [([['a']], .file [0x12, 0x00])] ['a']).1
  have hheld : s.machine.isSome = true := by decide +kernel
  obtain ⟨m, held⟩ := Option.isSome_iff_exists.mp hheld
  obtain ⟨looking, -, -⟩ := perform_keeps held [] 0 .memory "$21_0 ٣".toList
  obtain ⟨effects, dumpAddress, dumpCount, answer, hlook, -⟩ := looking (.inl (by decide))
  obtain ⟨-, refused, -⟩ := perform_keeps held [] 0 .memory "$210 1O".toList
  have hwords : words "$210 1O".toList = ["$210".toList, "1O".toList] := by decide +kernel
  have haddress : readAddress "$210".toList = .ok 0x210 := rfl
  have hcount : readInt 10 "1O".toList = .error .malformed := rfl
  have hlength := Rejects.length hwords haddress hcount
  obtain ⟨-, -, inverted⟩ := perform_keeps held [] 0 .step "x".toList
  have hstep : ∃ r, s.perform [] 0 (.command .step "x".toList) = some r ∧
      r.2.printed = [red "Invalid step count"] := by
    rw [perform_of_act held [] 0 (by decide)]
    exact ⟨_, rfl, printed_settle _⟩
  obtain ⟨r, hr, hprinted⟩ := hstep
  exact ⟨s, m, held, ⟨effects, dumpAddress, dumpCount, answer, hlook⟩, refused _ hlength,
    ⟨r, hr, hprinted⟩, inverted (by decide) r _ hr hprinted⟩

end Session

end Chip8.Debugger
