import Chip8.Proofs.OperandGrammar
import Chip8.Proofs.SourceLayout

namespace Chip8

open Assembly

theorem Mnemonic.fields_of_address {m : Mnemonic} {f : OperandField} (hf : f ∈ m.fields)
    (hkind : f.kind = .address) : m.fields = [.address] := by
  rcases m.fields_cases with h | h | h | h | h | h
  · simp [h] at hf
  · exact h
  all_goals
    simp only [h, List.mem_cons, List.not_mem_nil, or_false] at hf
    rcases hf with rfl | rfl | rfl <;> cases hkind

theorem OperandField.place_address (a : Int) : OperandField.address.place a =
    if 0 ≤ a ∧ a ≤ 0xFFF then .ok a.toNat else .error (OperandField.address.refusal a) := by
  have hcapacity : (OperandField.address.capacity : Int) = 0xFFF + 1 := rfl
  rw [place, hcapacity]
  simp only [Int.lt_add_one_iff]
  rfl

namespace Assembly

open Text

namespace Statement

variable {s s' : Statement} {m : Mnemonic} {name : Text} {labels labels' : Labels}
  {bytes : List UInt8}

structure Alike (s s' : Statement) : Prop where
  item : s.item = s'.item
  operands : s.operands = s'.operands

theorem Alike.bytes_eq (h : Alike s s') (labels : Labels) : s.bytes labels = s'.bytes labels := by
  rw [Statement.bytes, Statement.bytes, operandTexts, operandTexts, h.item, h.operands]

def Refers (s : Statement) (name : Text) : Prop :=
  ∃ operands, splitOperands s.operands = .ok operands ∧ Uses s.item operands name

theorem readAddress_congr {t : Text} (ht : dropFinalFeed t = t)
    (h : isName t = true → labels.lookup t = labels'.lookup t) :
    readAddress labels t = readAddress labels' t := by
  simp only [readAddress, ht]
  split
  · rfl
  · split_ifs with hname
    · rw [h hname]
    · rfl

theorem readOperand_congr {f : OperandField} {t : Text} (ht : dropFinalFeed t = t)
    (h : f.kind = .address → isName t = true → labels.lookup t = labels'.lookup t) :
    readOperand labels f.kind t = readOperand labels' f.kind t := by
  cases hkind : f.kind with
  | address => rw [readOperand, readOperand, readAddress_congr ht (h hkind)]
  | register | byte | nibble => rfl

theorem bytes_congr (h : ∀ name, s.Refers name → labels.lookup name = labels'.lookup name) :
    s.bytes labels = s.bytes labels' := by
  cases hoperands : s.operandTexts with
  | error fault => rw [bytes, bytes, hoperands]; rfl
  | ok operands =>
    obtain ⟨hsplit, -⟩ := operandTexts_eq_ok.mp hoperands
    have hfeed := dropFinalFeed_of_splitOperands hsplit
    rw [bytes, bytes, hoperands]
    cases hitem : s.item with
    | instruction m =>
      have hread : ∀ p ∈ m.fields.zip operands,
          readOperand labels p.1.kind p.2 = readOperand labels' p.1.kind p.2 := by
        intro p hp
        apply readOperand_congr (hfeed p.2 (List.of_mem_zip hp).2)
        intro hkind hname
        exact h p.2 ⟨operands, hsplit, m, p.1, hitem, hp, hkind, hname⟩
      change instructionBytes labels m operands = instructionBytes labels' m operands
      rw [instructionBytes, instructionBytes]
      exact congrArg₂ bind (List.mapM_congr_of_mem hread) rfl
    | word | bits => rfl

structure AddressedBy (s : Statement) (m : Mnemonic) (name : Text) : Prop where
  item : s.item = .instruction m
  field : m.fields = [.address]
  split : splitOperands s.operands = .ok [name]
  named : isName name = true

theorem Refers.addressedBy (h : s.Refers name)
    (hbytes : s.bytes labels = .ok bytes) : ∃ m, s.AddressedBy m name := by
  obtain ⟨operands, hsplit, m, f, hitem, hmem, hkind, hname⟩ := h
  obtain ⟨operands', hsplit', hcount, -⟩ := bytes_eq_ok.mp hbytes
  obtain rfl : operands' = operands := by
    rw [hsplit] at hsplit'
    cases hsplit'
    rfl
  have hfield := Mnemonic.fields_of_address (List.of_mem_zip hmem).1 hkind
  rw [hitem, Item.operandCount, hfield] at hcount
  obtain ⟨t, rfl⟩ := List.length_eq_one_iff.mp hcount
  rw [hfield] at hmem
  simp only [List.zip_cons_cons, List.zip_nil_left, List.mem_singleton, Prod.mk.injEq] at hmem
  obtain ⟨-, rfl⟩ := hmem
  exact ⟨m, hitem, hfield, hsplit, hname⟩

theorem readAddress_of_isName (hname : isName name = true) (hfeed : dropFinalFeed name = name) :
    readAddress labels name =
      (labels.lookup name).elim (.error (.undefinedLabel name)) fun a =>
        if 0xFFF < a then .error (.distantLabel name a) else .ok a := by
  cases name with
  | nil => cases hname
  | cons c t =>
    have hc : c ≠ '$' := by
      rintro rfl
      simp [isName, isNameStart] at hname
    simp only [readAddress, hfeed, marked_eq_none hc, hname, if_true]
    cases labels.lookup (c :: t) <;> rfl

theorem encode_address (hfield : m.fields = [.address]) (a : Int) :
    (⟨m, [a]⟩ : Instruction).encode = (OperandField.address.place a).map (m.base + ·) := by
  rw [Instruction.encode, hfield, if_neg (by simp)]
  simp only [List.zip_cons_cons, List.zip_nil_left, List.mapM_cons, List.mapM_nil]
  cases OperandField.address.place a <;> rfl

theorem instructionBytes_of_address (hfield : m.fields = [.address]) (labels : Labels) (t : Text) :
    instructionBytes labels m [t] = do
      let a ← (readAddress labels t).mapError .error
      let bits ← (OperandField.address.place a).mapError (·.map .encoding)
      return wordBytes (m.base + bits) := by
  rw [instructionBytes, hfield]
  simp only [List.zip_cons_cons, List.zip_nil_left, List.mapM_cons, List.mapM_nil]
  change ((readAddress labels t).mapError Interruption.error >>= fun a => pure [a]) >>= _ = _
  cases readAddress labels t with
  | error fault => rfl
  | ok a =>
    change Except.mapError _ ((⟨m, [a]⟩ : Instruction).encode) >>= _ =
      Except.mapError _ (OperandField.address.place a) >>= _
    rw [encode_address hfield]
    cases OperandField.address.place a <;> rfl

theorem AddressedBy.bytes_eq (h : s.AddressedBy m name) (labels : Labels) :
    s.bytes labels =
      (labels.lookup name).elim (.error (.error (.undefinedLabel name))) fun a =>
        if 0xFFF < a then .error (.error (.distantLabel name a))
        else if a < 0 then .error ((OperandField.address.refusal a).map .encoding)
        else .ok (wordBytes (m.base + a.toNat)) := by
  have hfeed := dropFinalFeed_of_splitOperands h.split name (List.mem_singleton_self name)
  have hcount : [name].length = m.fields.length := by
    rw [h.field]
    rfl
  rw [bytes_eq_instructionBytes h.item h.split hcount, instructionBytes_of_address h.field,
    readAddress_of_isName h.named hfeed]
  cases labels.lookup name with
  | none => rfl
  | some a =>
    rw [Option.elim_some, Option.elim_some]
    -- the reader refuses an address that is too large, the encoder one below zero
    by_cases hfar : 0xFFF < a
    · rw [if_pos hfar, if_pos hfar]
      rfl
    · rw [if_neg hfar, if_neg hfar]
      change (OperandField.address.place a).mapError _ >>= _ = _
      rw [OperandField.place_address]
      by_cases hneg : a < 0
      · rw [if_neg (by omega), if_pos hneg]
        rfl
      · rw [if_pos (by omega), if_neg hneg]
        rfl

theorem Refers.defined (h : s.Refers name) (hbytes : s.bytes labels = .ok bytes) :
    ∃ a, labels.lookup name = some a ∧ 0 ≤ a ∧ a ≤ 0xFFF := by
  obtain ⟨m, haddressed⟩ := h.addressedBy hbytes
  rw [haddressed.bytes_eq] at hbytes
  cases hlookup : labels.lookup name with
  | none =>
    rw [hlookup] at hbytes
    cases hbytes
  | some a =>
    rw [hlookup, Option.elim_some] at hbytes
    split_ifs at hbytes with hfar hneg
    exact ⟨a, rfl, Int.not_lt.mp hneg, Int.not_lt.mp hfar⟩

end Statement

theorem alike_statementsFrom (address address' : Int) (number number' : Nat) (lines : List Text) :
    List.Forall₂ Statement.Alike (statementsFrom address number lines)
      (statementsFrom address' number' lines) := by
  induction lines generalizing address address' number number' with
  | nil => exact .nil
  | cons raw rest ih =>
    cases h : held raw with
    | none =>
      rw [statementsFrom_none h, statementsFrom_none h]
      exact ih _ _ _ _
    | some c =>
      rw [statementsFrom_some h, statementsFrom_some h]
      exact .cons ⟨rfl, rfl⟩ (ih _ _ _ _)

end Assembly

end Chip8
