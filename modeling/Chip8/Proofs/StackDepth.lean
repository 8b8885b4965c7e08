import Chip8.Proofs.StepEffects

namespace Chip8.Processor

variable {τ : Type} {p : Processor τ}

structure Levelled (p : Processor τ) : Prop where
  bound : p.depth ≤ 48
  sp : p.sp = 0xEA0 + 2 * (p.depth - 1)

namespace Levelled

theorem freeSlot_eq (h : p.Levelled) : p.freeSlot = 0xEA0 + 2 * p.depth := by
  have hsp := h.sp
  simp only [freeSlot]
  split_ifs <;> omega

theorem call_eq (h : p.Levelled) (address : Nat) :
    p.call address = if p.depth = 48 then (p, some (.stackOverflow p.pc)) else
      ({ p with
        memory := p.memory.writeWord p.freeSlot p.pc
        sp := p.freeSlot
        depth := p.depth + 1 }.goTo address, none) := by
  have hbound := h.bound
  have hend : Memory.stackEnd = 0xEFF := rfl
  simp only [call, h.freeSlot_eq, hend]
  split_ifs <;> first | rfl | omega

theorem call (h : p.Levelled) (address : Nat) : (p.call address).1.Levelled := by
  have hbound := h.bound
  rw [h.call_eq, h.freeSlot_eq]
  split_ifs with hfull
  · exact h
  · refine ⟨?_, ?_⟩
    · show p.depth + 1 ≤ 48
      omega
    · show 0xEA0 + 2 * p.depth = 0xEA0 + 2 * (p.depth + 1 - 1)
      omega

theorem ret (h : p.Levelled) : p.ret.Levelled := by
  have hbound := h.bound
  have hsp := h.sp
  by_cases hzero : p.depth = 0
  · rw [Processor.ret, if_pos hzero]
    exact ⟨h.bound, h.sp⟩
  · rw [Processor.ret, if_neg hzero]
    refine ⟨?_, ?_⟩
    · show p.depth - 1 ≤ 48
      omega
    · show (if 1 < p.depth then p.sp - 2 else p.sp) = 0xEA0 + 2 * (p.depth - 1 - 1)
      split_ifs <;> omega

theorem execute (h : p.Levelled) (word : Nat) (m : Mnemonic) : (p.execute word m).1.Levelled := by
  by_cases hcall : m = .call
  · subst hcall
    exact h.call _
  · by_cases hrts : m = .rts
    · subst hrts
      exact h.ret
    · obtain ⟨hsp, hdepth⟩ := p.execute_stack word hcall hrts
      exact ⟨hdepth ▸ h.bound, by rw [hsp, hdepth, h.sp]⟩

end Levelled

end Chip8.Processor
