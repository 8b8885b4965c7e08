import Chip8.Proofs.OperandSpelling
import Chip8.Proofs.TextPieces

namespace Chip8.Assembly

open Text

def Spelled (labels : Labels) (m : Mnemonic) (texts : List Text) (values : List Int) : Prop :=
  List.Forall₂ (fun (f, t) v => Spells labels f.kind t v) (m.fields.zip texts) values

inductive Emits (labels : Labels) : Item → List Text → List UInt8 → Prop
  | instruction {m : Mnemonic} {texts : List Text} {values : List Int} {word : Nat}
    (spelled : Spelled labels m texts values)
    (encoded : (⟨m, values⟩ : Instruction).encode = .ok word) :
    Emits labels (.instruction m) texts (wordBytes word)
  | data {item : Item} {t : Text} {bytes : List UInt8} (spells : SpellsData item t bytes) :
    Emits labels item [t] bytes

theorem Emits.length {labels : Labels} {item : Item} {texts : List Text} {bytes : List UInt8}
    (h : Emits labels item texts bytes) : bytes.length = item.width := by
  cases h with
  | instruction => rfl
  | data hs => cases hs <;> rfl

theorem dropFinalFeed_of_splitOperands {t : Text} {texts : List Text}
    (h : splitOperands t = .ok texts) : ∀ u ∈ texts, dropFinalFeed u = u := by
  simp only [splitOperands] at h
  split_ifs at h
  · cases h
    simp
  · cases h
    simp only [List.forall_mem_map]
    exact fun u _ => dropFinalFeed_trim u

theorem mapM_readOperand_eq_ok {labels : Labels} {m : Mnemonic} {texts : List Text}
    {values : List Int} (h : ∀ u ∈ texts, dropFinalFeed u = u) :
    (m.fields.zip texts).mapM (fun (f, t) => readOperand labels f.kind t) = .ok values ↔
      Spelled labels m texts values := by
  rw [List.mapM_eq_ok, Spelled]
  have hread : ∀ p ∈ m.fields.zip texts, ∀ v : Int,
      readOperand labels p.1.kind p.2 = .ok v ↔ Spells labels p.1.kind p.2 v :=
    fun p hp v => readOperand_eq_ok (h p.2 (List.of_mem_zip hp).2)
  generalize m.fields.zip texts = pairs at hread
  induction pairs generalizing values with
  | nil => simp only [List.forall₂_nil_left_iff]
  | cons p pairs ih =>
    simp only [List.forall₂_cons_left_iff, hread p (by simp), ih (fun q hq => hread q (by simp [hq]))]

namespace Statement

theorem operandTexts_eq_ok {s : Statement} {texts : List Text} :
    s.operandTexts = .ok texts ↔
      splitOperands s.operands = .ok texts ∧ texts.length = s.item.operandCount := by
  simp only [operandTexts, Except.bind_eq_ok]
  constructor
  · rintro ⟨texts, ht, h⟩
    split_ifs at h with hl
    cases h
    exact ⟨ht, hl⟩
  · rintro ⟨ht, hl⟩
    exact ⟨texts, ht, if_pos hl⟩

theorem instructionBytes_eq_ok {labels : Labels} {m : Mnemonic} {texts : List Text}
    {bytes : List UInt8} (h : ∀ u ∈ texts, dropFinalFeed u = u) :
    instructionBytes labels m texts = .ok bytes ↔ Emits labels (.instruction m) texts bytes := by
  simp only [instructionBytes, Except.bind_eq_ok, mapM_readOperand_eq_ok h, Except.mapError_eq_ok,
    pure, Except.pure, Except.ok.injEq]
  constructor
  · rintro ⟨values, hs, word, he, rfl⟩
    exact .instruction hs he
  · intro h
    cases h with
    | instruction hs he => exact ⟨_, hs, _, he, rfl⟩
    | data hs => cases hs

theorem bytes_eq_ok {labels : Labels} {s : Statement} {bytes : List UInt8} :
    s.bytes labels = .ok bytes ↔ ∃ texts, splitOperands s.operands = .ok texts ∧
      texts.length = s.item.operandCount ∧ Emits labels s.item texts bytes := by
  simp only [Statement.bytes, Except.bind_eq_ok, Except.mapError_eq_ok, operandTexts_eq_ok,
    and_assoc]
  refine exists_congr fun texts => and_congr_right fun hsplit => and_congr_right fun hlength => ?_
  have hfeed := dropFinalFeed_of_splitOperands hsplit
  cases hi : s.item with
  | instruction m => exact instructionBytes_eq_ok hfeed
  | word =>
    rw [hi] at hlength
    obtain ⟨t, rfl⟩ := List.length_eq_one_iff.mp hlength
    rw [Except.mapError_eq_ok, List.headD_cons, readWord_eq_ok (hfeed t (by simp))]
    exact ⟨.data, fun h => by cases h; assumption⟩
  | bits =>
    rw [hi] at hlength
    obtain ⟨t, rfl⟩ := List.length_eq_one_iff.mp hlength
    rw [Except.mapError_eq_ok, List.headD_cons, readBits_eq_ok (hfeed t (by simp))]
    exact ⟨.data, fun h => by cases h; assumption⟩

theorem bytes_eq_instructionBytes {s : Statement} {m : Mnemonic} {texts : List Text}
    (hitem : s.item = .instruction m) (hsplit : splitOperands s.operands = .ok texts)
    (hcount : texts.length = m.fields.length) (labels : Labels) :
    s.bytes labels = instructionBytes labels m texts := by
  have hoperands : s.operandTexts = .ok texts := by
    apply operandTexts_eq_ok.mpr
    rw [hitem]
    exact ⟨hsplit, hcount⟩
  rw [Statement.bytes, hoperands, hitem]
  rfl

theorem bytes_length {labels : Labels} {s : Statement} {bytes : List UInt8}
    (h : s.bytes labels = .ok bytes) : bytes.length = s.width := by
  obtain ⟨texts, -, -, he⟩ := bytes_eq_ok.mp h
  exact he.length

theorem width_pos (s : Statement) : 0 < s.width := by
  cases h : s.item <;> simp [width, h, Item.width]

end Statement

end Chip8.Assembly
