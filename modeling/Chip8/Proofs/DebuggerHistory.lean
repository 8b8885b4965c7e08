import Chip8.Proofs.MachineHistory
import Mathlib.Data.Finset.Basic
import Mathlib.Data.Finset.Lattice.Lemmas

namespace Chip8

open Time

namespace Processor

variable {τ : Type} {rom : List UInt8} {seed : Option Int} {advancing : Bool} {p : Processor τ}

theorem execute_rom (p : Processor τ) (word : Nat) (m : Mnemonic) :
    (p.execute word m).1.rom = p.rom := by
  rw [execute_eq]

variable [Measure τ]

inductive Running (rom : List UInt8) (seed : Option Int) (advancing : Bool) : Processor τ → Prop
  | powerOn (start : Int) : Running rom seed advancing (.powerOn rom seed advancing start)
  | step {p : Processor τ} {elapsed : τ} (running : Running rom seed advancing p) :
    Running rom seed advancing (p.step elapsed).1
  | assign {κ : Type} {m : Machine κ τ} (running : Running rom seed advancing m.processor)
    (value : Int) (target : Debugger.Session.Target) :
    Running rom seed advancing (Debugger.Session.assign m value target).processor

theorem Running.options (h : p.Running rom seed advancing) :
    p.rom = rom ∧ p.seed = seed ∧ p.advancing = advancing := by
  induction h with
  | powerOn => exact ⟨rfl, rfl, rfl⟩
  | step _ ih =>
    apply step_keeps (fun p => p.rom = rom ∧ p.seed = seed ∧ p.advancing = advancing) ih ih
    · intro q word m hq
      obtain ⟨hseed, hadvancing⟩ := q.execute_options word m
      rwa [q.execute_rom word m, hseed, hadvancing]
    · exact fun _ _ hq => hq
  | assign _ value target ih => cases target <;> exact ih

theorem Running.reset (h : p.Running rom seed advancing) (start : Option Int) (e : Entropy) :
    (p.reset start e).1.Running rom seed advancing := by
  obtain ⟨hrom, hseed, hadvancing⟩ := h.options
  rw [Processor.reset, hrom, hseed, hadvancing]
  exact .powerOn _

end Processor

namespace Debugger

def Request.edit (marks : Finset Int) : Request → Finset Int
  | .command .mark argument =>
    match readAddress argument with
    | .ok a => insert a marks
    | .error _ => marks
  | .command .delete argument =>
    match readAddress argument with
    | .ok a => marks.erase a
    | .error _ => marks
  | .command .clear _ => ∅
  | _ => marks

def Request.carry (marks : Finset Int) : Request → Finset Int
  | .command .reload _ => marks
  | _ => ∅

theorem readAddress_nil : readAddress [] = .error "invalid literal for int() with base 10: ''" := by
  rfl

end Debugger

namespace Machine

variable {κ τ : Type}

def marks (m : Machine κ τ) : Finset Int := m.breakpoints.toFinset

theorem mem_insertAddress {a b : Int} {l : List Int} :
    b ∈ insertAddress a l ↔ b = a ∨ b ∈ l := by
  induction l with
  | nil => rw [insertAddress, List.mem_singleton, or_iff_left List.not_mem_nil]
  | cons c rest ih =>
    rw [insertAddress]
    split_ifs with hlt heq
    · exact List.mem_cons
    · rw [heq, List.mem_cons, or_self_left]
    · rw [List.mem_cons, ih, List.mem_cons, or_left_comm]

theorem marks_setBreakpoint (m : Machine κ τ) (a : Int) :
    (m.setBreakpoint a).marks = insert a m.marks := by
  ext b
  rw [marks, List.mem_toFinset, Finset.mem_insert, marks, List.mem_toFinset]
  exact mem_insertAddress

theorem marks_clearBreakpoint (m : Machine κ τ) (a : Int) :
    (m.clearBreakpoint a).marks = m.marks.erase a := by
  ext b
  rw [marks, List.mem_toFinset, Finset.mem_erase, marks, List.mem_toFinset, clearBreakpoint,
    List.mem_filter, decide_eq_true_iff, and_comm]

theorem foldl_setBreakpoint (addresses : List Int) (m : Machine κ τ) :
    ∃ breakpoints, addresses.foldl setBreakpoint m = { m with breakpoints } ∧
      breakpoints.toFinset = m.marks ∪ addresses.toFinset := by
  induction addresses generalizing m with
  | nil => exact ⟨m.breakpoints, rfl, (Finset.union_empty _).symm⟩
  | cons a rest ih =>
    obtain ⟨breakpoints, hfold, hmarks⟩ := ih (m.setBreakpoint a)
    refine ⟨breakpoints, hfold, ?_⟩
    rw [hmarks, marks_setBreakpoint, List.toFinset_cons, Finset.insert_union, Finset.union_insert]

variable [Measure τ]

structure Obeys (m : Machine κ τ) (request : Debugger.Request) (n : Machine κ τ) : Prop where
  running {rom : List UInt8} {seed : Option Int} {advancing : Bool} :
    m.processor.Running rom seed advancing → n.processor.Running rom seed advancing
  marks : n.marks = request.edit m.marks

theorem Passes.running [Clock κ τ] {m n : Machine κ τ} {ms : List Mnemonic} {rom : List UInt8}
    {seed : Option Int} {advancing : Bool} (h : m.Passes ms n)
    (hrunning : m.processor.Running rom seed advancing) :
    n.processor.Running rom seed advancing := by
  induction h with
  | refl m => exact hrunning
  | alike halike _ ih => exact ih (halike.processor ▸ hrunning)
  | step _ ih =>
    apply ih
    rw [bareStep_eq]
    exact hrunning.step

theorem Passes.obeys [Clock κ τ] {m n : Machine κ τ} {ms : List Mnemonic} (h : m.Passes ms n)
    {request : Debugger.Request} (hedit : ∀ marks, request.edit marks = marks) :
    m.Obeys request n := by
  obtain ⟨-, -, hbreakpoints⟩ := h.kept
  exact ⟨h.running, by rw [hedit, Machine.marks, hbreakpoints, Machine.marks]⟩

end Machine

namespace Debugger

structure Moment where
  files : Storage.Files
  fuel : Nat
  request : Request

namespace Session

variable {κ τ : Type} {s t : Session κ τ} {m n : Machine κ τ} {request : Request}

def wanted (s : Session κ τ) : Request → Option Text
  | .command .load name => if name = [] then none else some name
  | .command .reload _ => s.program
  | _ => none

theorem wanted_ne_nil {name : Text} (h : s.program ≠ some [])
    (wanted : s.wanted request = some name) : name ≠ [] := by
  rintro rfl
  cases request with
  | nothing | unknown => cases wanted
  | command verb argument =>
    cases verb with
    | load =>
      rw [Session.wanted] at wanted
      split_ifs at wanted with hargument
      exact hargument (Option.some.inj wanted)
    | reload => exact h wanted
    | _ => cases wanted

variable [Measure τ]

structure Idle (s : Session κ τ) (request : Request) (t : Session κ τ) : Prop where
  settings : t.settings = s.settings
  seedless : t.seedless = s.seedless
  program : t.program = s.program
  machine : Option.Rel (fun m n => Machine.Obeys m request n) s.machine t.machine

theorem Idle.self (h : ∀ marks, request.edit marks = marks) : s.Idle request s where
  settings := rfl
  seedless := rfl
  program := rfl
  machine := by
    cases s.machine with
    | none => exact .none
    | some m => exact .some ⟨id, (h m.marks).symm⟩

theorem Idle.of_obeys (held : s.machine = some m) (h : m.Obeys request n) :
    s.Idle request { s with machine := some n } where
  settings := rfl
  seedless := rfl
  program := rfl
  machine := by
    rw [held]
    exact .some h

theorem Idle.of_none (absent : s.machine = none) : s.Idle request s where
  settings := rfl
  seedless := rfl
  program := rfl
  machine := by
    rw [absent]
    exact .none

theorem Idle.settled {answer : Answer} (h : s.Idle request t) :
    s.Idle request (settle (t, answer)).1 := by
  rw [settle]
  cases ht : t.machine with
  | none => exact h
  | some n =>
    have hmachine := h.machine
    rw [ht] at hmachine
    refine ⟨h.settings, h.seedless, h.program, ?_⟩
    generalize s.machine = held at hmachine ⊢
    cases hmachine with
    | some hobeys => exact .some ⟨hobeys.running, hobeys.marks⟩

theorem idle_executed (held : s.machine = some m) (h : m.Obeys request n) (printed : List Item)
    (fault : Option StepFault) : s.Idle request (s.executed n printed fault).1 := by
  cases fault with
  | none => exact .of_obeys held h
  | some fault =>
    rw [executed]
    split_ifs <;> exact .of_obeys held h

/-! Requests that a machine answers -/

theorem idle_mark (held : s.machine = some m) (argument : Text) :
    s.Idle (.command .mark argument) (s.mark m argument).1 := by
  rw [mark]
  by_cases hargument : argument = []
  · rw [if_pos hargument, hargument]
    exact .self fun marks => by rw [Request.edit, readAddress_nil]
  · rw [if_neg hargument]
    cases haddress : readAddress argument with
    | error e => exact .self fun marks => by rw [Request.edit, haddress]
    | ok a => exact .of_obeys held ⟨id, by rw [m.marks_setBreakpoint, Request.edit, haddress]⟩

theorem idle_delete (held : s.machine = some m) (argument : Text) :
    s.Idle (.command .delete argument) (s.delete m argument).1 := by
  rw [delete]
  by_cases hargument : argument = []
  · rw [if_pos hargument, hargument]
    exact .self fun marks => by rw [Request.edit, readAddress_nil]
  · rw [if_neg hargument]
    cases haddress : readAddress argument with
    | error e => exact .self fun marks => by rw [Request.edit, haddress]
    | ok a => exact .of_obeys held ⟨id, by rw [m.marks_clearBreakpoint, Request.edit, haddress]⟩

theorem idle_reset (held : s.machine = some m) (argument : Text) :
    s.Idle (.command .reset argument) (s.reset m argument).1 := by
  rw [reset]
  cases optionalInt argument with
  | none => exact .self fun _ => rfl
  | some seed => exact .of_obeys held ⟨fun h => h.reset _ _, rfl⟩

theorem idle_memory (m : Machine κ τ) (argument : Text) :
    s.Idle (.command .memory argument) (s.memory m argument).1 := by
  have hself : s.Idle (.command .memory argument) s := .self fun _ => rfl
  rw [memory]
  cases readSpan (Text.words argument) s.dumpAddress s.dumpCount with
  | error e => exact hself
  | ok span => exact ⟨hself.settings, hself.seedless, hself.program, hself.machine⟩

theorem idle_listing (m : Machine κ τ) (argument : Text) :
    s.Idle (.command .program argument) (s.listing m argument).1 := by
  rw [listing]
  split <;> exact .self fun _ => rfl

theorem idle_set (held : s.machine = some m) (argument : Text) :
    s.Idle (.command .set argument) (s.set m argument).1 := by
  simp only [set]
  split
  · split
    · exact .self fun _ => rfl
    · exact .self fun _ => rfl
    · rename_i value target _ _
      refine .of_obeys held ⟨fun h => h.assign value target, ?_⟩
      cases target <;> rfl
  · exact .self fun _ => rfl

variable [Clock κ τ]

theorem idle_run (held : s.machine = some m) (hedit : ∀ marks, request.edit marks = marks)
    {fuel : Nat} {argument : Text} {r : Session κ τ × Answer}
    (answered : s.run m fuel argument = some r) : s.Idle request r.1 := by
  rw [run] at answered
  cases hmax : optionalInt argument with
  | none =>
    rw [hmax] at answered
    cases answered
    exact .self hedit
  | some max =>
    rw [hmax] at answered
    obtain ⟨⟨n, result⟩, hrun, hr⟩ := Option.map_eq_some_iff.mp answered
    have hobeys := (Machine.passes_run hrun).obeys hedit
    cases hr
    cases result with
    | ok reason => exact idle_executed held hobeys _ none
    | error fault => exact idle_executed held hobeys [] (some fault)

theorem passes_steps (count : Nat) (m : Machine κ τ) : ∃ ms, m.Passes ms (steps count m).1 := by
  induction count generalizing m with
  | zero => exact ⟨[], .refl m⟩
  | succ count ih =>
    have hstep := m.step_alike
    rw [steps]
    rcases hstepped : m.step with ⟨n, fault | _ | _⟩ <;> rw [hstepped] at hstep
    · exact ⟨_, .step (.of_alike hstep)⟩
    · exact ⟨_, .step (.of_alike hstep)⟩
    · obtain ⟨ms, hpasses⟩ := ih n
      exact ⟨_, .step (.alike hstep hpasses)⟩

theorem idle_step (held : s.machine = some m) (argument : Text) :
    s.Idle (.command .step argument) (s.step m argument).1 := by
  rw [step]
  cases optionalInt argument with
  | none => exact .self fun _ => rfl
  | some count =>
    obtain ⟨ms, hpasses⟩ := passes_steps (count.getD 1).toNat m
    exact idle_executed held (hpasses.obeys fun _ => rfl) [] _

theorem idle_act (held : s.machine = some m) {fuel : Nat} {argument : Text} {verb : Verb}
    {r : Session κ τ × Answer} (answered : s.act m fuel argument verb = some r) :
    s.Idle (.command verb argument) r.1 := by
  cases verb with
  | run => exact idle_run held (fun _ => rfl) answered
  | resume =>
    have answered : s.run m fuel [] = some r := answered
    exact idle_run held (fun _ => rfl) answered
  | step =>
    cases answered
    exact idle_step held argument
  | reset =>
    cases answered
    exact idle_reset held argument
  | mark =>
    cases answered
    exact idle_mark held argument
  | delete =>
    cases answered
    exact idle_delete held argument
  | clear =>
    cases answered
    exact .of_obeys held ⟨id, rfl⟩
  | memory =>
    cases answered
    exact idle_memory m argument
  | program =>
    cases answered
    exact idle_listing m argument
  | set =>
    cases answered
    exact idle_set held argument
  | _ =>
    cases answered
    exact .self fun _ => rfl

theorem perform_of_machine (s : Session κ τ) (files : Storage.Files) (fuel : Nat) {verb : Verb}
    (argument : Text) (h : verb ∉ [.load, .reload, .quit, .exit, .help]) :
    s.perform files fuel (.command verb argument) =
      match s.machine with
      | none => some (s, { printed := [red "No program loaded"] })
      | some m => (s.act m fuel argument verb).map settle := by
  cases verb with
  | load | reload | quit | exit | help => exact absurd (by decide) h
  | _ => rfl

theorem idle_perform {files : Storage.Files} {fuel : Nat} {r : Session κ τ × Answer}
    (unwanted : s.wanted request = none) (performed : s.perform files fuel request = some r) :
    s.Idle request r.1 := by
  cases request with
  | nothing | unknown =>
    cases performed
    exact .self fun _ => rfl
  | command verb argument =>
    cases verb with
    | load =>
      obtain rfl : argument = [] := by
        by_contra hargument
        rw [wanted, if_neg hargument] at unwanted
        cases unwanted
      cases performed
      exact .self fun _ => rfl
    | reload =>
      have unwanted : s.program = none := unwanted
      have performed : some (s.reload files) = some r := performed
      rw [reload, unwanted] at performed
      cases performed
      exact .self fun _ => rfl
    | quit | exit | help =>
      cases performed
      exact .self fun _ => rfl
    | _ =>
      rw [perform_of_machine s files fuel argument (by decide)] at performed
      cases held : s.machine with
      | none =>
        rw [held] at performed
        cases performed
        exact .of_none held
      | some m =>
        rw [held] at performed
        obtain ⟨r', hact, rfl⟩ := Option.map_eq_some_iff.mp performed
        exact (idle_act held hact).settled

def after (s : Session κ τ) (moments : List Moment) : Option (Session κ τ) :=
  moments.foldlM (fun s e => (s.perform e.files e.fuel e.request).map Prod.fst) s

theorem after_cons {e : Moment} {rest : List Moment} (h : s.after (e :: rest) = some t) :
    ∃ u answer, s.perform e.files e.fuel e.request = some (u, answer) ∧ u.after rest = some t := by
  obtain ⟨u, hu, hrest⟩ := Option.bind_eq_some_iff.mp h
  obtain ⟨⟨u, answer⟩, hperform, rfl⟩ := Option.map_eq_some_iff.mp hu
  exact ⟨u, answer, hperform, hrest⟩

end Session

end Debugger

end Chip8
