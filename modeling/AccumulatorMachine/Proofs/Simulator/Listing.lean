import AccumulatorMachine.Listing
import AccumulatorMachine.Proofs.Instruction
import AccumulatorMachine.Proofs.Simulator.Tagging

/-! The listing of well-tagged memory is a program for that memory: each row is read as the cells
it shows, and the rows cover every cell once. -/
namespace AccumulatorMachine

namespace Memory

variable {start : ℕ}

def cellsFrom (m : Memory) (start : ℕ) : List Cell := (addresses.drop start).map m.cell

theorem addresses_drop (h : start < 256) :
    addresses.drop start = UInt8.ofNat start :: addresses.drop (start + 1) := by
  have hlength : start < addresses.length := by simpa [addresses] using h
  rw [List.drop_eq_getElem_cons hlength]
  simp [addresses]

theorem cellsFrom_cons (m : Memory) (h : start < 256) :
    m.cellsFrom start = m.cell (UInt8.ofNat start) :: m.cellsFrom (start + 1) := by
  rw [cellsFrom, addresses_drop h]
  rfl

theorem cellsFrom_end (m : Memory) (h : ¬ start < 256) : m.cellsFrom start = [] := by
  rw [cellsFrom, List.drop_eq_nil_of_le (by simp [addresses]; omega)]
  rfl

theorem length_cellsFrom (m : Memory) : (m.cellsFrom 0).length = 256 := by
  simp [cellsFrom, addresses]

theorem getElem?_cellsFrom (m : Memory) (a : UInt8) :
    (m.cellsFrom 0)[a.toNat]? = some (m.cell a) := by
  have hlt := a.toNat_lt
  simp [cellsFrom, addresses, hlt]

end Memory

namespace Listing

open Line (classify)
open Memory (cellsFrom_cons cellsFrom_end length_cellsFrom getElem?_cellsFrom)
open Numeral (writeNat)

variable {m : Memory} {mnemonic : Mnemonic} {start : ℕ} {a : UInt8}

/-- Rows carry no comment. -/
theorem classify_row (mnemonic : Mnemonic) {words : List Text} (hws : ∀ w ∈ words, Line.Word w) :
    classify (Line.join (mnemonic.name.toList :: words)) = .instruction mnemonic words.head? := by
  have h := Line.classify_join mnemonic.ofToken?_name mnemonic.word_name hws (.inl rfl)
  rwa [List.append_nil] at h

theorem classify_value (b : Base) (v : UInt8) :
    classify (writeNat b v.toNat) = .literal (writeNat b v.toNat) := by
  have hword := (Numeral.digits_writeNat b v.toNat).word
  have h := Line.classify_word (Mnemonic.ofToken?_byte b v) hword (.inl rfl)
  rwa [List.append_nil] at h

theorem classify_implied (b : Base) (mnemonic : Mnemonic) :
    classify (instructionText b mnemonic none) = .instruction mnemonic none := by
  have hnone : ∀ w ∈ ([] : List Text), Line.Word w := by simp
  have h := classify_row mnemonic hnone
  rwa [Line.join, List.intercalate_singleton] at h

theorem classify_operand (b : Base) (mnemonic : Mnemonic) (v : UInt8) :
    classify (instructionText b mnemonic (some v)) =
      .instruction mnemonic (some (writeNat b v.toNat)) := by
  have hone : ∀ w ∈ [writeNat b v.toNat], Line.Word w := by
    simpa using (Numeral.digits_writeNat b v.toNat).word
  have h := classify_row mnemonic hone
  rwa [Line.join_cons, Line.join, List.intercalate_singleton] at h

theorem decode?_eq_none (hm : m.WellTagged) (h : decode? m a = none) : m.tag a = none := by
  cases htag : m.tag a with
  | none => rfl
  | some c =>
    obtain ⟨mnemonic, hcell, -⟩ := hm a c htag
    have hread : m.read a = mnemonic.opcode := congrArg Prod.fst hcell
    rw [decode?, htag, hread, Mnemonic.ofOpcode?_opcode] at h
    simp at h

theorem decode?_eq_some (hm : m.WellTagged) (h : decode? m a = some mnemonic) :
    m.cell a = (mnemonic.opcode, some mnemonic.category) ∧
      (mnemonic.arity = .address → a ≠ 255 ∧ m.tag (a + 1) = none) := by
  cases htag : m.tag a with
  | none =>
    rw [decode?, htag] at h
    simp at h
  | some c =>
    obtain ⟨mnemonic', hcell, hnext⟩ := hm a c htag
    have hread : m.read a = mnemonic'.opcode := congrArg Prod.fst hcell
    rw [decode?, htag, hread, Mnemonic.ofOpcode?_opcode] at h
    obtain rfl : mnemonic' = mnemonic := by simpa using h
    exact ⟨hcell, hnext⟩

/-- The cells a row shows are those its text assembles to. -/
theorem image_rowAt (b : Base) (hm : m.WellTagged) (h : start < 256) :
    (classify (rowAt b m (UInt8.ofNat start)).1).image b ++
        m.cellsFrom (start + (rowAt b m (UInt8.ofNat start)).2) =
      m.cellsFrom start := by
  rw [cellsFrom_cons m h]
  generalize ha : UInt8.ofNat start = a
  unfold rowAt
  cases hdecode : decode? m a with
  | none =>
    have htag := decode?_eq_none hm hdecode
    simp [classify_value, Line.Kind.image, Numeral.byte_writeNat, Memory.cell, htag]
  | some mnemonic =>
    obtain ⟨hcell, hnext⟩ := decode?_eq_some hm hdecode
    cases harity : mnemonic.arity with
    | implied => simp [harity, classify_implied, Line.Kind.image, hcell]
    | address =>
      -- The last cell is never tagged as half an instruction, so the row has both its cells.
      obtain ⟨hlast, hoperand⟩ := hnext harity
      have hlt : start + 1 < 256 := by
        by_contra hge
        apply hlast
        rw [← ha, show start = 255 by omega]
        rfl
      have hadd : UInt8.ofNat (start + 1) = a + 1 := by rw [← ha, UInt8.ofNat_add]; rfl
      have hcell' : m.cell (a + 1) = (m.read (a + 1), none) := by rw [← hoperand]; rfl
      rw [cellsFrom_cons m hlt, hadd, hcell, hcell']
      simp [harity, hlast, classify_operand, Line.Kind.image, Numeral.byte_writeNat]

theorem image_rowsFrom (b : Base) (hm : m.WellTagged) (start : ℕ) :
    Assembly.image b ((rowsFrom b m start).map (·.text)) = m.cellsFrom start := by
  induction start using rowsFrom.induct b m with
  | case1 start h a ih =>
    rw [rowsFrom, if_pos h, List.map_cons, Assembly.image_cons, ih]
    exact image_rowAt b hm h
  | case2 start h =>
    rw [rowsFrom, if_neg h, cellsFrom_end m h]
    rfl

def texts (b : Base) (m : Memory) : List Text := (rows b m).map (·.text)

/-- The texts of the rows assemble to the memory they list, every row of them. -/
def Reproduces (b : Base) (m : Memory) : Prop :=
  assemble b (texts b m) = ⟨m, ⟨256, (rows b m).length, false⟩⟩

theorem image_texts (b : Base) (hm : m.WellTagged) :
    Assembly.image b (texts b m) = m.cellsFrom 0 := image_rowsFrom b hm 0

/-- Rows as large as memory all fit. -/
theorem fitLines_texts (b : Base) (hm : m.WellTagged) :
    Layout.fitLines (texts b m) = (texts b m).length := by
  have hfull : 0 + (Assembly.image b (texts b m)).length ≤ 256 := by
    rw [image_texts b hm, length_cellsFrom]
  exact Assembly.fitFrom_eq_length hfull

theorem kept_texts (b : Base) (hm : m.WellTagged) : Assembly.kept (texts b m) = texts b m := by
  rw [Assembly.kept, fitLines_texts b hm, List.take_length]

theorem reproduces_of_wellTagged (b : Base) (hm : m.WellTagged) : Reproduces b m := by
  have hreport : (assemble b (texts b m)).report = ⟨256, (rows b m).length, false⟩ := by
    rw [Assembly.report_assemble, kept_texts b hm, image_texts b hm, length_cellsFrom,
      fitLines_texts b hm, decide_eq_false (Nat.lt_irrefl _), texts, List.length_map]
  have hmemory : (assemble b (texts b m)).memory = m := by
    apply Memory.ext_cell
    intro a
    rw [Assembly.cell_assemble, kept_texts b hm, image_texts b hm, getElem?_cellsFrom]
    rfl
  calc assemble b (texts b m)
      = ⟨(assemble b (texts b m)).memory, (assemble b (texts b m)).report⟩ := rfl
    _ = ⟨m, ⟨256, (rows b m).length, false⟩⟩ := by rw [hmemory, hreport]

end Listing

namespace Simulator

open Listing (Reproduces)

/-- However far a program has run and whatever it has stored over itself. A poke alone could break
it, by changing an opcode under its tag. -/
theorem listing_reproduces_memory (settings : Settings) {ops : List Operation}
    (hops : ∀ a v, .poke a v ∉ ops) (b : Base) :
    Reproduces b ((new settings).performAll ops).machine.memory :=
  Listing.reproduces_of_wellTagged b (wellTagged_performAll settings hops)

/-- The first store hits the operand of the second, which hits an opcode. -/
theorem listing_reproduces_overwritten_program :
    let ops : List Operation :=
      [.assemble .hex ["STA 3".toList, "STA 2".toList, "ADD".toList], .step, .step]
    (∀ a v, .poke a v ∉ ops) ∧ Reproduces .hex ((new {}).performAll ops).machine.memory := by
  refine ⟨by simp, ?_⟩
  exact listing_reproduces_memory {} (by simp) .hex

end Simulator

end AccumulatorMachine
