import AccumulatorMachine.Assembly
import AccumulatorMachine.Layout
import AccumulatorMachine.Proofs.Memory
import Mathlib.Data.Nat.Notation

/-! The image of a program is what its lines leave in their cells, one after the other.
Assembling puts the image of the lines that fit at the bottom of memory and nothing above it, so
programs whose lines have the same sizes differ in memory just where their images differ. -/
namespace AccumulatorMachine

abbrev Cell := UInt8 × Option Category

def Line.Kind.image (base : Base) : Line.Kind → List Cell
  | .blank => [(0, none)]
  | .instruction m operand =>
    (m.opcode, some m.category) ::
      match m.arity with
      | .implied => []
      | .address => [((operand.map (Numeral.byte base)).getD 0, none)]
  | .literal code => [(Numeral.byte base code, none)]

theorem Line.Kind.length_image (base : Base) (k : Line.Kind) : (k.image base).length = k.size := by
  cases k with
  | blank => rfl
  | instruction m operand => cases m <;> rfl
  | literal code => rfl

theorem Line.Kind.size_pos (k : Line.Kind) : 0 < k.size := by
  cases k with
  | blank => exact Nat.one_pos
  | instruction m operand => cases m <;> exact Nat.zero_lt_succ _
  | literal code => exact Nat.one_pos

namespace Assembly

def image (base : Base) (lines : List Text) : List Cell :=
  lines.flatMap fun line => (Line.classify line).image base

def ClearFrom (m : Memory) (start : ℕ) : Prop := ∀ a : UInt8, start ≤ a.toNat → m.cell a = (0, none)

/-- The second memory is the first with the given cells from `start` on and nothing after them. -/
def Laid (m m' : Memory) (start : ℕ) (cells : List Cell) : Prop :=
  ∀ a : UInt8, m'.cell a =
    if start ≤ a.toNat then cells[a.toNat - start]?.getD (0, none) else m.cell a

variable {base : Base} {m m₁ m₂ : Memory} {start : ℕ} {lines : List Text} {cells cells' : List Cell}

theorem ofNat_eq_iff {i : ℕ} (hi : i < 256) (a : UInt8) : UInt8.ofNat i = a ↔ i = a.toNat := by
  rw [← UInt8.toNat_inj]
  simp [Nat.mod_eq_of_lt hi]

theorem Laid.nil (hclear : ClearFrom m start) : Laid m m start [] := by
  intro a
  split
  · next h => simpa using hclear a h
  · rfl

theorem Laid.single {x : Cell} (hclear : ClearFrom m start)
    (h : ∀ a : UInt8, m₁.cell a = if start = a.toNat then x else m.cell a) :
    Laid m m₁ start [x] := by
  intro a
  rw [h a]
  split
  · next heq => simp [heq]
  · next hne =>
    split
    · next hle =>
      rw [hclear a hle, List.getElem?_eq_none (by simp; omega)]
      rfl
    · rfl

theorem Laid.append (h₁ : Laid m m₁ start cells)
    (h₂ : Laid m₁ m₂ (start + cells.length) cells') : Laid m m₂ start (cells ++ cells') := by
  intro a
  rw [h₂ a, h₁ a]
  by_cases hlow : start ≤ a.toNat
  · by_cases hhigh : start + cells.length ≤ a.toNat
    · rw [if_pos hhigh, if_pos hlow, List.getElem?_append_right (by omega), Nat.sub_sub]
    · rw [if_neg hhigh, if_pos hlow, if_pos hlow, List.getElem?_append_left (by omega)]
  · rw [if_neg (by omega), if_neg hlow, if_neg hlow]

theorem Laid.clear (h : Laid m m₁ start cells) : ClearFrom m₁ (start + cells.length) := by
  intro a ha
  rw [h a, if_pos (by omega), List.getElem?_eq_none (by omega)]
  rfl

theorem write_laid (hclear : ClearFrom m start) (hlt : start < 256) (v : UInt8) :
    Laid m (m.write (UInt8.ofNat start) v) start [(v, none)] := by
  refine .single hclear ?_
  intro a
  -- A clear cell has no tag, so its byte is all there is to write.
  simp only [Memory.cell_write, ofNat_eq_iff hlt]
  split
  · next heq => rw [show m.tag a = none from congrArg Prod.snd (hclear a (Nat.le_of_eq heq))]
  · rfl

theorem replace_laid (hclear : ClearFrom m start) (hlt : start < 256) (v : UInt8)
    (t : Option Category) :
    Laid m ((m.write (UInt8.ofNat start) v).setTag (UInt8.ofNat start) t) start [(v, t)] := by
  refine .single hclear ?_
  intro a
  simp only [Memory.cell_replace, ofNat_eq_iff hlt]

theorem skip_laid (hclear : ClearFrom m start) : Laid m m start [(0, none)] := by
  refine .single hclear ?_
  intro a
  split
  · next heq => exact hclear a (Nat.le_of_eq heq)
  · rfl

/-- Placing a line lays out its image. -/
theorem place_laid (base : Base) (k : Line.Kind) (hfit : start + k.size ≤ 256)
    (hclear : ClearFrom m start) : Laid m (place base m start k) start (k.image base) := by
  have hlt : start < 256 := by have := k.size_pos; omega
  cases k with
  | blank => exact skip_laid hclear
  | literal code => exact write_laid hclear hlt _
  | instruction mnemonic operand =>
    have hopcode := replace_laid hclear hlt mnemonic.opcode (some mnemonic.category)
    have hnext : ClearFrom _ (start + 1) := hopcode.clear
    cases harity : mnemonic.arity with
    | implied =>
      simp only [place, Line.Kind.image, harity]
      exact hopcode
    | address =>
      have hlt' : start + 1 < 256 := by
        simp only [Line.Kind.size, Mnemonic.size, harity] at hfit
        omega
      simp only [place, Line.Kind.image, harity]
      cases operand with
      | none => exact hopcode.append (skip_laid hnext)
      | some token => exact hopcode.append (write_laid hnext hlt' _)

theorem image_cons (base : Base) (line : Text) (rest : List Text) :
    image base (line :: rest) = (Line.classify line).image base ++ image base rest :=
  List.flatMap_cons

variable {line : Text} {rest : List Text}

theorem placeAll_fits (h : start + Line.size line ≤ 256) :
    placeAll base m start (line :: rest) =
      let placed := placeAll base (place base m start (Line.classify line))
        (start + Line.size line) rest
      (placed.1, placed.2.1, placed.2.2 + 1) := if_pos h

theorem placeAll_full (h : ¬ start + Line.size line ≤ 256) :
    placeAll base m start (line :: rest) = (m, start, 0) := if_neg h

/-- Only what a line is matters to the assembler, not how it is written. -/
theorem placeAll_congr {lines' : List Text} (h : lines.map Line.classify = lines'.map Line.classify)
    (base : Base) (m : Memory) (start : ℕ) :
    placeAll base m start lines = placeAll base m start lines' := by
  induction lines generalizing lines' m start with
  | nil =>
    rw [List.map_eq_nil_iff.mp h.symm]
  | cons line rest ih =>
    obtain ⟨line', rest', rfl, hline, hrest⟩ := List.map_eq_cons_iff.mp h.symm
    rw [placeAll, placeAll, hline]
    simp only [ih hrest.symm]

/-- A blank line behind the others leaves memory as it is, whether or not it still fits. -/
theorem placeAll_append_blank (hblank : Line.classify line = .blank) (base : Base) (m : Memory)
    (start : ℕ) (lines : List Text) :
    (placeAll base m start (lines ++ [line])).1 = (placeAll base m start lines).1 := by
  induction lines generalizing m start with
  | nil =>
    rw [List.nil_append]
    by_cases h : start + Line.size line ≤ 256
    · rw [placeAll_fits h, hblank]
      rfl
    · rw [placeAll_full h]
      rfl
  | cons first rest ih =>
    rw [List.cons_append]
    by_cases h : start + Line.size first ≤ 256
    · rw [placeAll_fits h, placeAll_fits h]
      exact ih _ _
    · rw [placeAll_full h, placeAll_full h]

theorem fitFrom_fits (h : start + Line.size line ≤ 256) :
    Layout.fitFrom start (line :: rest) = Layout.fitFrom (start + Line.size line) rest + 1 :=
  if_pos h

theorem fitFrom_full (h : ¬ start + Line.size line ≤ 256) :
    Layout.fitFrom start (line :: rest) = 0 := if_neg h

theorem placeAll_count (base : Base) (m : Memory) (start : ℕ) (lines : List Text) :
    (placeAll base m start lines).2.2 = Layout.fitFrom start lines := by
  induction lines generalizing m start with
  | nil => rfl
  | cons line rest ih =>
    by_cases h : start + Line.size line ≤ 256
    · rw [placeAll_fits h, fitFrom_fits h, ← ih]
    · rw [placeAll_full h, fitFrom_full h]

theorem placeAll_finish (base : Base) (m : Memory) (start : ℕ) (lines : List Text) :
    (placeAll base m start lines).2.1 =
      start + (image base (lines.take (Layout.fitFrom start lines))).length := by
  induction lines generalizing m start with
  | nil => rfl
  | cons line rest ih =>
    by_cases h : start + Line.size line ≤ 256
    · rw [placeAll_fits h, fitFrom_fits h, List.take_succ_cons, image_cons, List.length_append,
        Line.Kind.length_image, ← Nat.add_assoc]
      exact ih _ _
    · rw [placeAll_full h, fitFrom_full h]
      rfl

theorem placeAll_laid (base : Base) (lines : List Text) (hclear : ClearFrom m start) :
    Laid m (placeAll base m start lines).1 start
      (image base (lines.take (Layout.fitFrom start lines))) := by
  induction lines generalizing m start with
  | nil => exact .nil hclear
  | cons line rest ih =>
    by_cases h : start + Line.size line ≤ 256
    · have hline := place_laid base (Line.classify line) h hclear
      have hlength := Line.Kind.length_image base (Line.classify line)
      have hnext := hline.clear
      rw [hlength] at hnext
      rw [placeAll_fits h, fitFrom_fits h, List.take_succ_cons, image_cons]
      exact hline.append (by rw [hlength]; exact ih hnext)
    · rw [placeAll_full h, fitFrom_full h]
      exact .nil hclear

theorem length_image_fits (base : Base) (hstart : start ≤ 256) (lines : List Text) :
    start + (image base (lines.take (Layout.fitFrom start lines))).length ≤ 256 := by
  induction lines generalizing start with
  | nil => simpa [image] using hstart
  | cons line rest ih =>
    by_cases h : start + Line.size line ≤ 256
    · have hrest := ih h
      rw [fitFrom_fits h, List.take_succ_cons, image_cons, List.length_append,
        Line.Kind.length_image, ← Nat.add_assoc]
      exact hrest
    · rw [fitFrom_full h]
      simpa [image] using hstart

theorem fitFrom_eq_length (h : start + (image base lines).length ≤ 256) :
    Layout.fitFrom start lines = lines.length := by
  induction lines generalizing start with
  | nil => rfl
  | cons line rest ih =>
    rw [image_cons, List.length_append, Line.Kind.length_image, ← Nat.add_assoc] at h
    have hfit : start + Line.size line ≤ 256 := Nat.le_trans (Nat.le_add_right _ _) h
    rw [fitFrom_fits hfit]
    exact congrArg (· + 1) (ih h)

def kept (lines : List Text) : List Text := lines.take (Layout.fitLines lines)

theorem length_image_kept (base : Base) (lines : List Text) :
    (image base (kept lines)).length ≤ 256 := by
  have := length_image_fits base (Nat.zero_le 256) lines
  rwa [Nat.zero_add] at this

theorem report_assemble (base : Base) (lines : List Text) :
    (assemble base lines).report =
      ⟨(image base (kept lines)).length, Layout.fitLines lines,
        Layout.fitLines lines < lines.length⟩ := by
  have hcount := placeAll_count base .empty 0 lines
  have hfinish := placeAll_finish base .empty 0 lines
  rw [Nat.zero_add] at hfinish
  simp only [assemble, hcount, hfinish]
  rfl

theorem cell_assemble (base : Base) (lines : List Text) (a : UInt8) :
    (assemble base lines).memory.cell a = (image base (kept lines))[a.toNat]?.getD (0, none) := by
  have hclear : ClearFrom Memory.empty 0 := fun a _ => Memory.cell_empty a
  have h := placeAll_laid base lines hclear a
  rw [if_pos (Nat.zero_le _)] at h
  exact h

theorem memory_eq_iff {base' : Base} {lines' : List Text}
    (hlength : (image base (kept lines)).length = (image base' (kept lines')).length) :
    (assemble base lines).memory = (assemble base' lines').memory ↔
      image base (kept lines) = image base' (kept lines') := by
  constructor
  · intro h
    apply List.ext_getElem hlength
    intro i hi hi'
    have hbound := length_image_kept base lines
    have hindex : (UInt8.ofNat i).toNat = i := by simp; omega
    have hcell := congrArg (Memory.cell · (UInt8.ofNat i)) h
    simpa [cell_assemble, hindex, hi, hi'] using hcell
  · intro h
    apply Memory.ext_cell
    intro a
    rw [cell_assemble, cell_assemble, h]

end Assembly

end AccumulatorMachine
