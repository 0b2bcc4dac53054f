import AccumulatorMachine.Proofs.Assembly
import AccumulatorMachine.Proofs.Simulator.Storage

/-! A tag says that its cell still holds the opcode that was assembled there, and that the operand
next to it is no instruction. Assembling sets tags this way and a store takes its own tag away, so
short of a poke no history breaks it; a store into an operand may change the operand all the same. -/
namespace AccumulatorMachine

def Memory.WellTagged (m : Memory) : Prop :=
  ∀ a c, m.tag a = some c → ∃ mnemonic : Mnemonic,
    m.cell a = (mnemonic.opcode, some mnemonic.category) ∧
    (mnemonic.arity = .address → a ≠ 255 ∧ m.tag (a + 1) = none)

namespace Assembly

variable {base : Base} {k : Line.Kind} {c : Category} {v : UInt8} {i : ℕ}

theorem tagged_of_kind (h : (k.image base)[i]? = some (v, some c)) :
    ∃ mnemonic : Mnemonic, (v, some c) = (mnemonic.opcode, some mnemonic.category) ∧
      (mnemonic.arity = .address → ∃ w, (k.image base)[i + 1]? = some (w, none)) := by
  cases k with
  | blank => cases i <;> simp [Line.Kind.image] at h
  | literal code => cases i <;> simp [Line.Kind.image] at h
  | instruction m operand =>
    cases i with
    | zero =>
      refine ⟨m, by simpa [Line.Kind.image, eq_comm] using h, ?_⟩
      intro harity
      simp [Line.Kind.image, harity]
    | succ i =>
      cases harity : m.arity with
      | implied => simp [Line.Kind.image, harity] at h
      | address => cases i <;> simp [Line.Kind.image, harity] at h

theorem tagged_of_image {lines : List Text} (h : (image base lines)[i]? = some (v, some c)) :
    ∃ mnemonic : Mnemonic, (v, some c) = (mnemonic.opcode, some mnemonic.category) ∧
      (mnemonic.arity = .address → ∃ w, (image base lines)[i + 1]? = some (w, none)) := by
  induction lines generalizing i with
  | nil => simp [image] at h
  | cons line rest ih =>
    rw [image_cons] at h ⊢
    -- No line ends between an opcode and its operand, so the next cell is in the same part.
    by_cases hi : i < ((Line.classify line).image base).length
    · rw [List.getElem?_append_left hi] at h
      obtain ⟨m, hm, hnext⟩ := tagged_of_kind h
      refine ⟨m, hm, ?_⟩
      intro harity
      obtain ⟨w, hw⟩ := hnext harity
      have hi' := (List.getElem?_eq_some_iff.mp hw).choose
      exact ⟨w, by rw [List.getElem?_append_left hi', hw]⟩
    · rw [List.getElem?_append_right (by omega)] at h
      obtain ⟨m, hm, hnext⟩ := ih h
      refine ⟨m, hm, ?_⟩
      intro harity
      obtain ⟨w, hw⟩ := hnext harity
      exact ⟨w, by rw [List.getElem?_append_right (by omega), ← hw]; congr 1; omega⟩

theorem wellTagged (base : Base) (lines : List Text) :
    (assemble base lines).memory.WellTagged := by
  intro a c htag
  have hcell : (assemble base lines).memory.cell a =
      ((assemble base lines).memory.read a, some c) := by rw [← htag]; rfl
  have himage : (image base (kept lines))[a.toNat]? =
      some ((assemble base lines).memory.read a, some c) := by
    rw [cell_assemble] at hcell
    cases h : (image base (kept lines))[a.toNat]? with
    | none => simp [h] at hcell
    | some x => simpa [h] using hcell
  obtain ⟨m, hm, hnext⟩ := tagged_of_image himage
  refine ⟨m, hcell.trans hm, ?_⟩
  intro harity
  obtain ⟨w, hw⟩ := hnext harity
  have hbound := length_image_kept base lines
  have hi := (List.getElem?_eq_some_iff.mp hw).choose
  have hadd : (a + 1).toNat = a.toNat + 1 := by
    rw [UInt8.toNat_add]
    exact Nat.mod_eq_of_lt (by simp; omega)
  constructor
  · rintro rfl
    simp at hi
    omega
  · have h := cell_assemble base lines (a + 1)
    rw [hadd, hw] at h
    exact congrArg Prod.snd h

end Assembly

namespace Memory

variable {m : Memory}

theorem wellTagged_empty : empty.WellTagged := by
  intro a c h
  simp at h

theorem WellTagged.store (h : m.WellTagged) (b v : UInt8) :
    ((m.write b v).setTag b none).WellTagged := by
  intro a c htag
  have hkept (x : UInt8) (hx : m.tag x = none) : ((m.write b v).setTag b none).tag x = none := by
    rw [tag_setTag]
    split
    · rfl
    · exact hx
  rw [tag_setTag] at htag
  by_cases hab : b = a
  · simp [hab] at htag
  · rw [if_neg hab] at htag
    obtain ⟨mnemonic, hcell, hnext⟩ := h a c htag
    refine ⟨mnemonic, by rw [cell_replace, if_neg hab, hcell], ?_⟩
    intro harity
    exact ⟨(hnext harity).1, hkept _ (hnext harity).2⟩

end Memory

theorem Storage.wellTagged_change {s t : Storage} (h : Storage.Change s t)
    (hs : s.memory.WellTagged) : t.memory.WellTagged := by
  cases h with
  | access h =>
    cases h with
    | fetch a => exact hs
    | load a => exact hs
    | store a v => exact hs.store a v
  | clear => exact hs
  | assemble base lines => exact Assembly.wellTagged base lines

/-- Without pokes, every history leads to well-tagged memory. -/
theorem Simulator.wellTagged_performAll (settings : Settings) {ops : List Operation}
    (hops : ∀ a v, .poke a v ∉ ops) :
    ((new settings).performAll ops).machine.memory.WellTagged :=
  performAll_keeps (P := fun s => s.memory.WellTagged) Storage.wellTagged_change
    (fun hmem => absurd hmem (hops _ _)) Memory.wellTagged_empty

end AccumulatorMachine
