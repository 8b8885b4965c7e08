import Chip8.Window
import Mathlib.Data.List.Basic
import Mathlib.Data.List.Induction

namespace Chip8

def DrawCall.paint (picture : List DrawCall) : DrawCall → List DrawCall
  | fill color => [fill color]
  | square color x y side => picture ++ [square color x y side]
  | _ => picture

def painted (calls : List DrawCall) : List DrawCall := calls.foldl DrawCall.paint []

theorem painted_append (calls more : List DrawCall) :
    painted (calls ++ more) = more.foldl DrawCall.paint (painted calls) :=
  List.foldl_append

def Lit (rows : List (List Bool)) (x y : Nat) : Prop :=
  ∃ row, rows[y]? = some row ∧ row[x]? = some true

def Shows (scale : Int) (rows : List (List Bool)) (picture : List DrawCall) : Prop :=
  ∃ pixels : List (Nat × Nat), pixels.Nodup ∧ (∀ x y, (x, y) ∈ pixels ↔ Lit rows x y) ∧
    picture = .fill .off :: pixels.map fun (x, y) => .square .on (x * scale) (y * scale) scale

structure Rising (frames : List Frame) : Prop where
  positive : ∀ f ∈ frames, 0 < f.sequence
  ordered : frames.Pairwise fun f g => f.sequence ≤ g.sequence
  same : ∀ f ∈ frames, ∀ g ∈ frames, f.sequence = g.sequence → f = g

namespace Window

inductive Turn where
  | opening (screen : Bool)
  | update (events : List WindowEvent) (frame : Option Frame)
  | shutdown

/-- What became of a window: all that it drew, and the frames that it took before it was last opened
and since then. -/
structure History where
  window : Window
  calls : List DrawCall := []
  earlier : List Frame := []
  taken : List Frame := []

namespace History

def after (h : History) : Turn → History
  | .opening screen =>
    let (w, calls, opened) := h.window.openOn screen
    if opened then ⟨w, h.calls ++ calls, h.earlier ++ h.taken, []⟩
    else ⟨w, h.calls ++ calls, h.earlier, h.taken⟩
  | .update events frame =>
    let (w, calls, stays) := h.window.update events frame
    ⟨w, h.calls ++ calls, h.earlier, if stays then h.taken ++ frame.toList else h.taken⟩
  | .shutdown =>
    let (w, calls) := h.window.shutdown
    ⟨w, h.calls ++ calls, h.earlier, h.taken⟩

end History

def replay (scale fps : Int) (turns : List Turn) : History :=
  turns.foldl History.after { window := { scale, fps } }

def Turn.frame? : Turn → Option Frame
  | update _ frame => frame
  | _ => none

def given (turns : List Turn) : List Frame := turns.filterMap Turn.frame?

end Window

section Pixels

def pixelsOf (rows : List (List Bool)) : List (Nat × Nat) :=
  rows.zipIdx.flatMap fun (row, y) => row.zipIdx.filterMap fun (pixel, x) =>
    if pixel then some (x, y) else none

theorem mem_pixelsOf {rows : List (List Bool)} {x y : Nat} :
    (x, y) ∈ pixelsOf rows ↔ Lit rows x y := by
  simp [pixelsOf, Lit, List.mem_zipIdx_iff_getElem?]

theorem pairwise_zipIdx {α : Type} (l : List α) :
    l.zipIdx.Pairwise fun p q => p.2 ≠ q.2 := by
  apply List.pairwise_map.mp
  rw [List.zipIdx_map_snd]
  exact List.nodup_range'

theorem nodup_pixelsOf (rows : List (List Bool)) : (pixelsOf rows).Nodup := by
  apply List.pairwise_flatMap.mpr
  constructor
  · rintro ⟨row, y⟩ -
    refine List.pairwise_filterMap.mpr ((pairwise_zipIdx row).imp ?_)
    rintro ⟨pixel, x⟩ ⟨pixel', x'⟩ hne b hb b' hb' rfl
    rw [Option.ite_none_right_eq_some, Option.some.injEq] at hb hb'
    rw [← hb.2, Prod.mk.injEq] at hb'
    exact hne hb'.2.1.symm
  · refine (pairwise_zipIdx rows).imp ?_
    rintro ⟨row, y⟩ ⟨row', y'⟩ hne b hb b' hb' rfl
    obtain ⟨p, -, hp⟩ := List.mem_filterMap.mp hb
    obtain ⟨p', -, hp'⟩ := List.mem_filterMap.mp hb'
    rw [Option.ite_none_right_eq_some, Option.some.injEq] at hp hp'
    rw [← hp.2, Prod.mk.injEq] at hp'
    exact hne hp'.2.2.symm

theorem squares_eq (w : Window) (rows : List (List Bool)) : w.squares rows =
    (pixelsOf rows).map fun (x, y) => .square .on (x * w.scale) (y * w.scale) w.scale := by
  rw [Window.squares, pixelsOf, List.map_flatMap]
  simp only [List.map_filterMap, apply_ite (Option.map _), Option.map_some, Option.map_none]

theorem shows_squares (w : Window) (rows : List (List Bool)) :
    Shows w.scale rows (.fill .off :: w.squares rows) :=
  ⟨pixelsOf rows, nodup_pixelsOf rows, fun _ _ => mem_pixelsOf, by rw [squares_eq]⟩

theorem foldl_paint_squares (w : Window) (rows : List (List Bool)) (picture : List DrawCall) :
    (w.squares rows).foldl DrawCall.paint picture = picture ++ w.squares rows := by
  rw [squares_eq]
  induction pixelsOf rows generalizing picture with
  | nil => exact (List.append_nil picture).symm
  | cons p pixels ih =>
    rw [List.map_cons, List.foldl_cons, ih]
    exact List.append_assoc _ _ _

end Pixels

def lastNumber (frames : List Frame) : Int := (frames.getLast?.map Frame.sequence).getD (-1)

theorem lastNumber_concat (frames : List Frame) (f : Frame) :
    lastNumber (frames ++ [f]) = f.sequence := by
  rw [lastNumber, List.getLast?_concat]
  rfl

namespace Rising

variable {frames frames' : List Frame} {f : Frame}

theorem sublist (h : Rising frames') (hsub : frames.Sublist frames') : Rising frames :=
  ⟨fun f hf => h.positive f (hsub.mem hf), h.ordered.sublist hsub,
    fun f hf g hg => h.same f (hsub.mem hf) g (hsub.mem hg)⟩

theorem getLast?_of_sequence (h : Rising (frames ++ [f])) (heq : f.sequence = lastNumber frames) :
    frames.getLast? = some f := by
  have hmem : f ∈ frames ++ [f] := List.mem_append_right _ (List.mem_singleton_self f)
  rw [lastNumber] at heq
  cases hlast : frames.getLast? with
  | none =>
    have hpos := h.positive f hmem
    rw [heq, hlast] at hpos
    cases hpos
  | some g =>
    rw [hlast] at heq
    have hg : g ∈ frames ++ [f] := List.mem_append_left _ (List.mem_of_getLast? hlast)
    rw [h.same f hmem g hg heq]

theorem sequence_of_mem (h : Rising (frames ++ [f])) (hf : f ∈ frames) :
    f.sequence = lastNumber frames := by
  rcases List.eq_nil_or_concat' frames with rfl | ⟨front, g, rfl⟩
  · cases hf
  · obtain ⟨hordered, -, hlast⟩ := List.pairwise_append.mp h.ordered
    have hle : g.sequence ≤ f.sequence :=
      hlast g (List.mem_append_right _ (List.mem_singleton_self g)) f (List.mem_singleton_self f)
    have hge : f.sequence ≤ g.sequence := by
      rcases List.mem_append.mp hf with hfront | hfront
      · exact (List.pairwise_append.mp hordered).2.2 f hfront g (List.mem_singleton_self g)
      · obtain rfl := List.mem_singleton.mp hfront
        exact Int.le_refl _
    rw [lastNumber_concat]
    exact Int.le_antisymm hge hle

end Rising

namespace Window

inductive Updates (w : Window) : Option Frame → Window × List DrawCall × Bool → Prop
  | refused {frame : Option Frame} : Updates w frame (w, [], false)
  | kept {frame : Option Frame} (isOpen : w.isOpen = true)
    (known : ∀ f, frame = some f → f.sequence = w.shown) :
    Updates w frame (w, [.tick w.fps], true)
  | drawn {f : Frame} (isOpen : w.isOpen = true) (new : f.sequence ≠ w.shown) :
    Updates w (some f)
      ({ w with shown := f.sequence, soundShown := f.sound, drawn := w.drawn + 1 },
        .fill .off :: w.squares f.rows ++ w.captions f.sound ++ [.flip] ++ [.tick w.fps], true)

theorem updates_update (w : Window) (events : List WindowEvent) (frame : Option Frame) :
    Updates w frame (w.update events frame) := by
  rw [update]
  by_cases hends : (!w.isOpen || events.any WindowEvent.ends) = true
  · rw [if_pos hends]
    exact .refused
  · rw [if_neg hends]
    rw [Bool.or_eq_true, Bool.not_eq_true', not_or, Bool.not_eq_false] at hends
    cases frame with
    | none => exact .kept hends.1 (by simp)
    | some f =>
      rw [present]
      by_cases hknown : f.sequence = w.shown
      · rw [if_pos hknown]
        refine .kept hends.1 fun g hg => ?_
        cases hg
        exact hknown
      · rw [if_neg hknown]
        exact .drawn hends.1 hknown

theorem isOpen_of_stays {w : Window} {events : List WindowEvent} {frame : Option Frame}
    (h : (w.update events frame).2.2 = true) : (w.update events frame).1.isOpen = true := by
  have hupdates := w.updates_update events frame
  generalize w.update events frame = result at hupdates h
  cases hupdates with
  | refused => cases h
  | kept isOpen known => exact isOpen
  | drawn isOpen new => exact isOpen

theorem foldl_paint_captions (w : Window) (sound : Bool) (picture : List DrawCall) :
    (w.captions sound).foldl DrawCall.paint picture = picture := by
  rw [captions]
  split_ifs <;> rfl

namespace History

/-- The screen holds the last frame taken since it was opened, unless that frame was taken earlier:
then it is still dark. -/
def picture (h : History) : List DrawCall :=
  .fill .off :: h.taken.getLast?.elim [] fun f =>
    if f ∈ h.earlier then [] else h.window.squares f.rows

structure InStep (scale : Int) (h : History) : Prop where
  scale : h.window.scale = scale
  shown : h.window.shown = lastNumber (h.earlier ++ h.taken)
  screen : h.window.isOpen = true → painted h.calls = h.picture

variable {h : History} {scale : Int}

theorem after_sublist (h : History) (turn : Turn) :
    ((h.after turn).earlier ++ (h.after turn).taken).Sublist
      (h.earlier ++ h.taken ++ turn.frame?.toList) := by
  cases turn with
  | opening screen =>
    cases screen with
    | true => exact List.Sublist.refl _
    | false => exact List.sublist_append_left _ _
  | update events frame =>
    change (h.earlier ++ if (h.window.update events frame).2.2 then h.taken ++ frame.toList
      else h.taken).Sublist _
    rw [List.append_assoc]
    apply List.Sublist.append_left
    split_ifs
    · exact List.Sublist.refl _
    · exact List.sublist_append_left _ _
  | shutdown => exact List.sublist_append_left _ _

theorem InStep.opening (hin : InStep scale h) (screen : Bool) :
    InStep scale (h.after (.opening screen)) := by
  cases screen with
  | true =>
    refine ⟨hin.scale, ?_, fun _ => ?_⟩
    · change h.window.shown = lastNumber (h.earlier ++ h.taken ++ [])
      rw [List.append_nil, hin.shown]
    · exact painted_append _ _
  | false =>
    refine ⟨hin.scale, hin.shown, fun hopen => ?_⟩
    change painted (h.calls ++ [.boot]) = h.picture
    rw [painted_append, hin.screen hopen]
    rfl

theorem InStep.shutdown (hin : InStep scale h) : InStep scale (h.after .shutdown) := by
  cases hopen : h.window.isOpen with
  | true =>
    simp only [after, Window.shutdown, hopen, if_true]
    exact ⟨hin.scale, hin.shown, fun hclosed => absurd hclosed Bool.false_ne_true⟩
  | false =>
    simp only [after, Window.shutdown, hopen, Bool.false_eq_true, if_false]
    exact ⟨hin.scale, hin.shown, fun hclosed => absurd (hopen.symm.trans hclosed) Bool.false_ne_true⟩

theorem InStep.kept {f : Frame} (hin : InStep scale h)
    (hrising : Rising (h.earlier ++ h.taken ++ [f])) (hknown : f.sequence = h.window.shown) :
    InStep scale { h with calls := h.calls ++ [.tick h.window.fps], taken := h.taken ++ [f] } := by
  have hlast := hrising.getLast?_of_sequence (hknown.trans hin.shown)
  refine ⟨hin.scale, ?_, fun hopen => ?_⟩
  · change h.window.shown = lastNumber (h.earlier ++ (h.taken ++ [f]))
    rw [← List.append_assoc, lastNumber_concat, hknown]
  · have hpainted : painted (h.calls ++ [.tick h.window.fps]) = h.picture :=
      (painted_append _ _).trans (hin.screen hopen)
    rw [hpainted, picture, picture, List.getLast?_concat]
    -- the last frame taken is this one, or none was taken yet and this one is from earlier
    cases htaken : h.taken.getLast? with
    | none =>
      rw [List.getLast?_append, htaken, Option.none_or] at hlast
      rw [Option.elim_some, if_pos (List.mem_of_getLast? hlast), Option.elim_none]
    | some g =>
      rw [List.getLast?_append, htaken, Option.some_or, Option.some.injEq] at hlast
      rw [hlast]

theorem InStep.drawn {f : Frame} (hin : InStep scale h)
    (hrising : Rising (h.earlier ++ h.taken ++ [f])) (hnew : f.sequence ≠ h.window.shown) :
    InStep scale
      { window := { h.window with
          shown := f.sequence, soundShown := f.sound, drawn := h.window.drawn + 1 }
        calls := h.calls ++ (.fill .off :: h.window.squares f.rows ++ h.window.captions f.sound ++
          [.flip] ++ [.tick h.window.fps])
        earlier := h.earlier
        taken := h.taken ++ [f] } := by
  -- a frame from before the opening would have the number that is remembered
  have hfresh : f ∉ h.earlier := by
    intro hmem
    exact hnew ((hrising.sequence_of_mem (List.mem_append_left _ hmem)).trans hin.shown.symm)
  refine ⟨hin.scale, ?_, fun _ => ?_⟩
  · change f.sequence = lastNumber (h.earlier ++ (h.taken ++ [f]))
    rw [← List.append_assoc, lastNumber_concat]
  · rw [picture, List.getLast?_concat, Option.elim_some, if_neg hfresh, painted_append]
    simp only [List.cons_append, List.foldl_cons, List.foldl_append, List.foldl_nil,
      foldl_paint_squares, foldl_paint_captions]
    rfl

theorem InStep.update (hin : InStep scale h) (events : List WindowEvent) (frame : Option Frame)
    (hrising : ∀ f, frame = some f → Rising (h.earlier ++ h.taken ++ [f])) :
    InStep scale (h.after (.update events frame)) := by
  have hupdates := h.window.updates_update events frame
  rw [after]
  generalize h.window.update events frame = result at hupdates
  cases hupdates with
  | refused =>
    simp only [List.append_nil, Bool.false_eq_true, if_false]
    exact hin
  | kept isOpen known =>
    cases frame with
    | none =>
      simp only [if_true, Option.toList_none, List.append_nil]
      exact ⟨hin.scale, hin.shown, fun hopen => (painted_append _ _).trans (hin.screen hopen)⟩
    | some f => exact hin.kept (hrising f rfl) (known f rfl)
  | @drawn f isOpen new => exact hin.drawn (hrising f rfl) new

end History

open History

variable {scale fps : Int} {turns : List Turn}

theorem replay_concat (turn : Turn) :
    replay scale fps (turns ++ [turn]) = (replay scale fps turns).after turn := by
  rw [replay, List.foldl_append, ← replay]
  rfl

theorem given_concat (turn : Turn) : given (turns ++ [turn]) = given turns ++ turn.frame?.toList := by
  rw [given, List.filterMap_append, ← given]
  cases turn with
  | opening screen => rfl
  | shutdown => rfl
  | update events frame => cases frame <;> rfl

theorem taken_sublist (scale fps : Int) (turns : List Turn) :
    ((replay scale fps turns).earlier ++ (replay scale fps turns).taken).Sublist (given turns) := by
  induction turns using List.reverseRecOn with
  | nil => exact .slnil
  | append_singleton turns turn ih =>
    rw [replay_concat, given_concat]
    exact (after_sublist _ turn).trans (ih.append_right _)

theorem inStep_replay (hrising : Rising (given turns)) : InStep scale (replay scale fps turns) := by
  induction turns using List.reverseRecOn with
  | nil => exact ⟨rfl, rfl, fun hopen => absurd hopen Bool.false_ne_true⟩
  | append_singleton turns turn ih =>
    rw [given_concat] at hrising
    have hin := ih (hrising.sublist (List.sublist_append_left _ _))
    rw [replay_concat]
    cases turn with
    | opening screen => exact hin.opening screen
    | shutdown => exact hin.shutdown
    | update events frame =>
      apply hin.update events frame
      rintro f rfl
      exact hrising.sublist ((taken_sublist scale fps turns).append_right _)

/-- A turn that takes a frame leaves it on the screen, but for a frame that was taken before the
window was last opened: opening leaves a dark screen, and the frame counts as drawn. -/
theorem picture_of_update {events : List WindowEvent} {f : Frame}
    (hrising : Rising (given (turns ++ [.update events (some f)])))
    (hstays : ((replay scale fps turns).window.update events (some f)).2.2 = true) :
    (f ∉ (replay scale fps turns).earlier → Shows scale f.rows
      (painted (replay scale fps (turns ++ [.update events (some f)])).calls)) ∧
    (f ∈ (replay scale fps turns).earlier →
      painted (replay scale fps (turns ++ [.update events (some f)])).calls = [.fill .off]) := by
  have hin := @inStep_replay scale fps _ hrising
  rw [replay_concat] at hin ⊢
  generalize replay scale fps turns = h at hin hstays ⊢
  have htaken : (h.after (.update events (some f))).taken = h.taken ++ [f] := by
    change (if (h.window.update events (some f)).2.2 then h.taken ++ [f] else h.taken) = _
    rw [if_pos hstays]
  have hscreen := hin.screen (isOpen_of_stays hstays)
  rw [picture, htaken, List.getLast?_concat, Option.elim_some] at hscreen
  change painted _ = .fill .off :: if f ∈ h.earlier then _ else _ at hscreen
  constructor
  · intro hfresh
    rw [hscreen, if_neg hfresh, ← hin.scale]
    exact shows_squares _ _
  · intro hearlier
    rw [hscreen, if_pos hearlier]

def spark : Frame := ⟨[[false, true]], false, 1⟩

def reopened : List Turn := [.opening true, .update [] (some spark), .opening true]

theorem picture_of_update_reopened :
    painted (replay 10 60 (reopened ++ [.update [.other] (some spark)])).calls = [.fill .off] ∧
      Shows 10 [[true, true]]
        (painted (replay 10 60 (reopened ++ [.update [] (some ⟨[[true, true]], true, 2⟩)])).calls) := by
  have hsame : Rising (given (reopened ++ [.update [.other] (some spark)])) :=
    ⟨by decide, by decide, by decide⟩
  have hnext : Rising (given (reopened ++ [.update [] (some ⟨[[true, true]], true, 2⟩)])) :=
    ⟨by decide, by decide, by decide⟩
  exact ⟨(@picture_of_update 10 60 reopened _ _ hsame rfl).2 (by decide),
    (@picture_of_update 10 60 reopened _ _ hnext rfl).1 (by decide)⟩

theorem not_shows_reopened :
    Rising (given (reopened ++ [.update [] (some spark)])) ∧
      ((replay 10 60 reopened).window.update [] (some spark)).2.2 = true ∧
      ¬Shows 10 spark.rows
        (painted (replay 10 60 (reopened ++ [.update [] (some spark)])).calls) := by
  refine ⟨⟨by decide, by decide, by decide⟩, rfl, ?_⟩
  rintro ⟨pixels, -, hlit, hpicture⟩
  have hdark : painted (replay 10 60 (reopened ++ [.update [] (some spark)])).calls =
      [.fill .off] := by rfl
  have hmem : (1, 0) ∈ pixels := (hlit 1 0).mpr ⟨[false, true], rfl, rfl⟩
  rw [hdark, List.cons.injEq] at hpicture
  rw [List.map_eq_nil_iff.mp hpicture.2.symm] at hmem
  cases hmem

end Window

end Chip8
