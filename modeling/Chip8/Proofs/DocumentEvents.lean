import Chip8.Editor.Server
import Mathlib.Data.List.DropRight
import Mathlib.Data.List.Induction

namespace Chip8.Editor

open Text

inductive Event where
  | opened (uri : String) (text : Text)
  | changed (uri : String) (changes : List Change)
  | closed (uri : String)

namespace Event

def uri : Event → String
  | opened uri _ => uri
  | changed uri _ => uri
  | closed uri => uri

def texts : Event → List Text
  | opened _ text => [text]
  | changed _ changes => (changes.filter (·.range.isNone)).map Change.text
  | closed _ => []

def closes (uri : String) : Event → Bool
  | closed other => other == uri
  | _ => false

end Event

def Diagnosable (t : Text) : Prop :=
  (∃ rom, (assemble Memory.programStart t).rom = .ok rom) ∨
    ∃ report, (assemble Memory.programStart t).rom = .error (.error report)

def sinceClosed (uri : String) (events : List Event) : List Event :=
  events.rtakeWhile fun e => !e.closes uri

def received (uri : String) (events : List Event) : List Text :=
  (events.filter fun e => e.uri = uri).flatMap Event.texts

def published (uri : String) (notices : List Notice) : List (List Diagnostic) :=
  notices.filterMap fun n =>
    match n.published with
    | .ok (other, diagnostics) => if other = uri then some diagnostics else none
    | .error _ => none

namespace Server

def handle (s : Server) : Event → Server × Notice
  | .opened uri text => s.didOpen uri text
  | .changed uri changes => s.didChange uri changes
  | .closed uri => s.didClose uri

def respond (r : Server × List Notice) (e : Event) : Server × List Notice :=
  ((r.1.handle e).1, r.2 ++ [(r.1.handle e).2])

def serve (events : List Event) : Server × List Notice := events.foldl respond ({}, [])

theorem serve_concat (events : List Event) (e : Event) :
    serve (events ++ [e]) = respond (serve events) e := List.foldl_append

end Server

theorem sinceClosed_concat (uri : String) (events : List Event) (e : Event) :
    sinceClosed uri (events ++ [e]) =
      if e.closes uri then [] else sinceClosed uri events ++ [e] := by
  rw [sinceClosed, List.rtakeWhile_concat, ← sinceClosed]
  cases e.closes uri <;> rfl

theorem received_concat (uri : String) (events : List Event) (e : Event) :
    received uri (events ++ [e]) =
      received uri events ++ if e.uri = uri then e.texts else [] := by
  rw [received, List.filter_append, List.flatMap_append, ← received]
  by_cases h : e.uri = uri <;> simp [h]

theorem published_concat (uri : String) (notices : List Notice) (n : Notice) :
    published uri (notices ++ [n]) = published uri notices ++ published uri [n] :=
  List.filterMap_append

theorem uri_of_closes {uri : String} {e : Event} (h : e.closes uri = true) : e.uri = uri := by
  cases e with
  | opened other text => cases h
  | changed other changes => cases h
  | closed other => exact beq_iff_eq.mp h

namespace Server

variable {s : Server} {uri key : String}

theorem lookup_filter (documents : List (String × Text)) (h : key ≠ uri) :
    (documents.filter (·.1 ≠ uri)).lookup key = documents.lookup key := by
  induction documents with
  | nil => rfl
  | cons document rest ih =>
    obtain ⟨name, text⟩ := document
    by_cases hname : name = uri
    · have hkey : (key == name) = false := by simp [hname, h]
      simp only [List.lookup_cons, hkey]
      simpa [hname] using ih
    · have hkept : ((name, text) :: rest).filter (·.1 ≠ uri) =
          (name, text) :: rest.filter (·.1 ≠ uri) := by simp [hname]
      rw [hkept, List.lookup_cons, List.lookup_cons, ih]

theorem lookup_filter_self (documents : List (String × Text)) (uri : String) :
    (documents.filter (·.1 ≠ uri)).lookup uri = none := by
  apply List.lookup_eq_none_iff.mpr
  intro document hdocument
  have hname : document.1 ≠ uri := of_decide_eq_true (List.mem_filter.mp hdocument).2
  exact bne_iff_ne.mpr hname.symm

theorem text?_put (s : Server) (uri : String) (text : Text) (key : String) :
    (s.put uri text).text? key = if uri = key then some text else s.text? key := by
  rw [text?, put, List.lookup_cons]
  by_cases h : uri = key
  · simp [h]
  · have hkey : (key == uri) = false := by simp [Ne.symm h]
    rw [hkey, if_neg h, lookup_filter _ (Ne.symm h)]
    rfl

theorem text?_applyChange (s : Server) (uri : String) (change : Change) (key : String) :
    (applyChange uri s change).text? key =
      if uri = key ∧ change.range.isNone then some change.text else s.text? key := by
  obtain ⟨text, range⟩ := change
  cases range with
  | none => simp [applyChange, text?_put]
  | some range => simp [applyChange]

theorem text?_foldl_applyChange (changes : List Change) (s : Server) (uri key : String) :
    (changes.foldl (applyChange uri) s).text? key =
      if uri = key then
        (((changes.filter (·.range.isNone)).map Change.text).getLast?).or (s.text? key)
      else s.text? key := by
  induction changes using List.reverseRecOn with
  | nil => simp
  | append_singleton changes change ih =>
    rw [List.foldl_append, List.foldl_cons, List.foldl_nil, text?_applyChange, ih]
    by_cases huri : uri = key
    · by_cases hrange : change.range.isNone = true <;> simp [huri, hrange]
    · simp [huri]

theorem text?_handle (s : Server) (e : Event) (key : String) :
    (s.handle e).1.text? key =
      if e.uri = key then if e.closes key then none else e.texts.getLast?.or (s.text? key)
      else s.text? key := by
  cases e with
  | opened uri text => exact text?_put s uri text key
  | changed uri changes => exact text?_foldl_applyChange changes s uri key
  | closed uri =>
    change (s.documents.filter (·.1 ≠ uri)).lookup key = _
    by_cases h : uri = key
    · subst h
      rw [lookup_filter_self]
      simp [Event.uri, Event.closes]
    · rw [lookup_filter _ (Ne.symm h)]
      simp [Event.uri, h, text?]

theorem diagnosis_of_text? {t : Server} (h : s.text? uri = t.text? uri) :
    s.diagnosis uri = t.diagnosis uri := by
  rw [diagnosis, diagnosis, h]

theorem published_handle (s : Server) (e : Event) :
    (s.handle e).2.published = ((s.handle e).1.diagnosis e.uri).found.map (e.uri, ·) := by
  cases e with
  | opened uri text => rfl
  | changed uri changes => rfl
  | closed uri =>
    have htext : (s.handle (.closed uri)).1.text? uri = none := by
      rw [text?_handle]
      simp [Event.uri, Event.closes]
    rw [diagnosis, show (Event.closed uri).uri = uri from rfl, htext]
    rfl

theorem published_handle_of_ne (s : Server) {e : Event} (h : e.uri ≠ uri) :
    published uri [(s.handle e).2] = [] := by
  rw [published, List.filterMap_cons, published_handle]
  cases ((s.handle e).1.diagnosis e.uri).found with
  | error digits => rfl
  | ok diagnostics => simp [Except.map, h]

theorem published_handle_self (s : Server) (e : Event) {diagnostics : List Diagnostic}
    (h : ((s.handle e).1.diagnosis e.uri).found = .ok diagnostics) :
    published e.uri [(s.handle e).2] = [diagnostics] := by
  rw [published, List.filterMap_cons, published_handle, h]
  simp [Except.map]

theorem exists_found {t : Text} (h : Diagnosable t) :
    ∃ diagnostics, (diagnose t).found = .ok diagnostics := by
  rw [diagnose]
  rcases h with ⟨rom, h⟩ | ⟨report, h⟩
  · exact ⟨[], by rw [h]⟩
  · exact ⟨[.ofReport t report], by rw [h]⟩

theorem diagnosable_nil : Diagnosable [] := .inl ⟨[], rfl⟩

theorem text?_serve (uri : String) (events : List Event) :
    (serve events).1.text? uri = (received uri (sinceClosed uri events)).getLast? := by
  induction events using List.reverseRecOn with
  | nil => rfl
  | append_singleton events e ih =>
    have hstep : (serve (events ++ [e])).1.text? uri =
        ((serve events).1.handle e).1.text? uri := by rw [serve_concat, respond]
    rw [hstep, text?_handle, ih, sinceClosed_concat]
    by_cases hcloses : e.closes uri = true
    · rw [if_pos hcloses, if_pos hcloses, if_pos (uri_of_closes hcloses)]
      rfl
    · rw [if_neg hcloses, if_neg hcloses, received_concat]
      by_cases huri : e.uri = uri
      · rw [if_pos huri, if_pos huri, List.getLast?_append]
      · rw [if_neg huri, if_neg huri, List.append_nil]

theorem serve_filter (uri : String) (events : List Event) :
    (serve (events.filter fun e => e.uri = uri)).1.text? uri = (serve events).1.text? uri ∧
      published uri (serve (events.filter fun e => e.uri = uri)).2 =
        published uri (serve events).2 := by
  induction events using List.reverseRecOn with
  | nil => exact ⟨rfl, rfl⟩
  | append_singleton events e ih =>
    obtain ⟨htext, hpublished⟩ := ih
    rw [List.filter_append, serve_concat]
    by_cases huri : e.uri = uri
    · subst huri
      have hafter : ((serve (events.filter fun o => o.uri = e.uri)).1.handle e).1.text? e.uri =
          ((serve events).1.handle e).1.text? e.uri := by
        rw [text?_handle, text?_handle, htext]
      have hnotice :
          published e.uri [((serve (events.filter fun o => o.uri = e.uri)).1.handle e).2] =
            published e.uri [((serve events).1.handle e).2] := by
        rw [published, published, List.filterMap_cons, List.filterMap_cons, published_handle,
          published_handle, diagnosis_of_text? hafter]
      rw [List.filter_cons_of_pos (by simp), List.filter_nil, serve_concat]
      refine ⟨hafter, ?_⟩
      rw [respond, respond, published_concat, published_concat, hpublished, hnotice]
    · rw [List.filter_cons_of_neg (by simpa using huri), List.filter_nil, List.append_nil]
      refine ⟨?_, ?_⟩
      · rw [htext, respond, text?_handle, if_neg huri]
      · rw [hpublished, respond, published_concat, published_handle_of_ne _ huri, List.append_nil]

theorem diagnosable_text? {uri : String} {events : List Event}
    (h : ∀ e ∈ events, e.uri = uri → ∀ t ∈ e.texts, Diagnosable t) :
    Diagnosable (((serve events).1.text? uri).getD []) := by
  rw [text?_serve]
  cases hlast : (received uri (sinceClosed uri events)).getLast? with
  | none => exact diagnosable_nil
  | some t =>
    obtain ⟨e, he, ht⟩ := List.mem_flatMap.mp (List.mem_of_getLast? hlast)
    obtain ⟨hsince, huri⟩ := List.mem_filter.mp he
    exact h e ((List.rtakeWhile_suffix _ _).subset hsince) (of_decide_eq_true huri) t ht

theorem exists_published {uri : String} {events : List Event}
    (htexts : ∀ e ∈ events, e.uri = uri → ∀ t ∈ e.texts, Diagnosable t)
    (hevent : ∃ e ∈ events, e.uri = uri) :
    ∃ diagnostics, ((serve events).1.diagnosis uri).found = .ok diagnostics ∧
      (published uri (serve events).2).getLast? = some diagnostics := by
  induction events using List.reverseRecOn with
  | nil =>
    obtain ⟨e, he, -⟩ := hevent
    cases he
  | append_singleton events e ih =>
    by_cases huri : e.uri = uri
    · subst huri
      obtain ⟨diagnostics, hfound⟩ := exists_found (diagnosable_text? htexts)
      refine ⟨diagnostics, hfound, ?_⟩
      rw [serve_concat] at hfound ⊢
      rw [respond, published_concat, published_handle_self _ e hfound, List.getLast?_concat]
    · -- an event of another document leaves the text and publishes nothing for this one
      obtain ⟨o, ho, hother⟩ := hevent
      have hbefore : o ∈ events := by
        rcases List.mem_append.mp ho with hmem | hmem
        · exact hmem
        · rw [List.mem_singleton.mp hmem] at hother
          exact absurd hother huri
      obtain ⟨diagnostics, hfound, hlast⟩ := ih
        (fun e he => htexts e (List.mem_append_left _ he)) ⟨o, hbefore, hother⟩
      refine ⟨diagnostics, ?_, ?_⟩
      · rw [serve_concat, respond, ← hfound, diagnosis_of_text?]
        rw [text?_handle, if_neg huri]
      · rw [serve_concat, respond, published_concat, published_handle_of_ne _ huri, List.append_nil,
          hlast]

/-- A document is the last full text since it was last closed, other documents make no difference to
it, and a request for diagnostics finds what was published last. -/
theorem documents_follow (uri : String) (events : List Event) :
    (serve events).1.text? uri = (received uri (sinceClosed uri events)).getLast? ∧
    (serve (events.filter fun e => e.uri = uri)).1.text? uri = (serve events).1.text? uri ∧
    published uri (serve (events.filter fun e => e.uri = uri)).2 =
      published uri (serve events).2 ∧
    ((∀ e ∈ events, ∀ t ∈ e.texts, Diagnosable t) → (∃ e ∈ events, e.uri = uri) →
      ∃ diagnostics, ((serve events).1.diagnosis uri).found = .ok diagnostics ∧
        (published uri (serve events).2).getLast? = some diagnostics) := by
  obtain ⟨htext, hpublished⟩ := serve_filter uri events
  refine ⟨text?_serve uri events, htext, hpublished, fun htexts hevent => ?_⟩
  exact exists_published (fun e he _ => htexts e he) hevent

def reopening : List Event :=
  [.opened "a" "RTS".toList,
   .changed "b" [⟨"CLR".toList, none⟩, ⟨"?".toList, some (⟨0, 0⟩, ⟨0, 1⟩)⟩],
   .closed "a",
   .changed "a" [⟨"FROB".toList, none⟩, ⟨"RTS".toList, some (⟨0, 0⟩, ⟨0, 4⟩)⟩]]

theorem documents_follow_reopening :
    (serve reopening).1.text? "a" = some "FROB".toList ∧
      ∃ diagnostics, ((serve reopening).1.diagnosis "a").found = .ok diagnostics ∧
        (published "a" (serve reopening).2).getLast? = some diagnostics ∧
        diagnostics.map Diagnostic.code = ["UnknownInstructionError"] := by
  have htexts : ∀ e ∈ reopening, ∀ t ∈ e.texts, Diagnosable t := by
    have hrts : Diagnosable "RTS".toList := .inl ⟨[0x00, 0xEE], by rfl⟩
    have hclr : Diagnosable "CLR".toList := .inl ⟨[0x00, 0xE0], by rfl⟩
    have hfrob : Diagnosable "FROB".toList := .inr ⟨_, by rfl⟩
    intro e he t ht
    simp only [reopening, List.mem_cons, List.not_mem_nil, or_false] at he
    rcases he with rfl | rfl | rfl | rfl
    · rwa [List.mem_singleton.mp ht]
    · rwa [List.mem_singleton.mp ht]
    · cases ht
    · rwa [List.mem_singleton.mp ht]
  obtain ⟨htext, -, -, hdiagnosis⟩ := documents_follow "a" reopening
  obtain ⟨diagnostics, hfound, hlast⟩ := hdiagnosis htexts
    ⟨.closed "a", by simp [reopening], rfl⟩
  refine ⟨htext, diagnostics, hfound, hlast, ?_⟩
  have hcodes : ((serve reopening).1.diagnosis "a").found.map (·.map Diagnostic.code) =
      .ok ["UnknownInstructionError"] := by rfl
  rw [hfound] at hcodes
  exact Except.ok.inj hcodes

end Server

end Chip8.Editor
