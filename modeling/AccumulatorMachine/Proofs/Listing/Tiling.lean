import AccumulatorMachine.Listing
import AccumulatorMachine.Proofs.Machine.Step
import AccumulatorMachine.Proofs.Memory
import Mathlib.Data.List.Chain

/-! The rows of a listing tile memory, whatever its cells hold and wherever its tags stand, on bytes
that are no opcodes and on operands as well. The loop that makes the rows comes to its end right
behind the last cell, and each cell is shown by one row. -/
namespace AccumulatorMachine.Listing

open Memory (addresses drop_addresses)

/-- Whether a cell is shown together with the one behind it. -/
structure Wide (m : Memory) (a : UInt8) : Prop where
  tagged : (m.tag a).isSome
  opcode : ∃ mnemonic : Mnemonic, mnemonic.arity = .address ∧ m.read a = mnemonic.opcode
  not_last : a ≠ 255

/-- The cells a row stands for. Behind the last cell it would begin again at the first. -/
def Row.cells (r : Row) : List UInt8 := (List.range r.size).map fun k => r.address + UInt8.ofNat k

/-- The address behind a row, too wide for a byte if the row is the last. -/
def Row.stop (r : Row) : ℕ := r.address.toNat + r.size

def rowOf (b : Base) (m : Memory) (a : UInt8) : Row :=
  ⟨a, (rowAt b m a).2, (rowAt b m a).1, m.tag a⟩

/-- The listing as a loop: the rows it appends from a cursor on and where it leaves the cursor. Rows
know their address as a byte, the cursor is a number that might outgrow it. The loop only has the
ends that it reaches after finitely many rounds. -/
inductive Loop (b : Base) (m : Memory) : ℕ → List Row → ℕ → Prop where
  | done {cursor : ℕ} : ¬ cursor < 256 → Loop b m cursor [] cursor
  | next {cursor stop : ℕ} {shown : List Row} : cursor < 256 →
      Loop b m (cursor + (rowOf b m (UInt8.ofNat cursor)).size) shown stop →
      Loop b m cursor (rowOf b m (UInt8.ofNat cursor) :: shown) stop

variable {b : Base} {m : Memory} {mnemonic : Mnemonic} {a : UInt8} {r : Row} {cursor stop : ℕ}
  {shown : List Row}

theorem decode?_eq_some_iff :
    decode? m a = some mnemonic ↔ (m.tag a).isSome ∧ m.read a = mnemonic.opcode := by
  rw [decode?, Option.ite_none_right_eq_some]
  constructor
  · rintro ⟨htag, hm⟩
    exact ⟨htag, (Mnemonic.opcode_of_ofOpcode? hm).symm⟩
  · rintro ⟨htag, hread⟩
    exact ⟨htag, by rw [hread, Mnemonic.ofOpcode?_opcode]⟩

theorem Wide.size (h : Wide m a) (b : Base) : (rowOf b m a).size = 2 := by
  obtain ⟨mnemonic, harity, hread⟩ := h.opcode
  have hdecode : decode? m a = some mnemonic := decode?_eq_some_iff.mpr ⟨h.tagged, hread⟩
  simp [rowOf, rowAt, hdecode, harity, h.not_last]

theorem size_of_not_wide (h : ¬ Wide m a) (b : Base) : (rowOf b m a).size = 1 := by
  unfold rowOf rowAt
  cases hdecode : decode? m a with
  | none => rfl
  | some mnemonic =>
    obtain ⟨htag, hread⟩ := decode?_eq_some_iff.mp hdecode
    cases harity : mnemonic.arity with
    | implied => simp [harity]
    | address =>
      have hlast : a = 255 := by
        by_contra hne
        exact h ⟨htag, ⟨mnemonic, harity, hread⟩, hne⟩
      simp [harity, hlast]

theorem size_cases (b : Base) (m : Memory) (a : UInt8) :
    (rowOf b m a).size = 1 ∨ (rowOf b m a).size = 2 := by
  by_cases h : Wide m a
  · exact .inr (h.size b)
  · exact .inl (size_of_not_wide h b)

theorem size_eq_two_iff (b : Base) (m : Memory) (a : UInt8) :
    (rowOf b m a).size = 2 ↔ Wide m a := by
  constructor
  · intro hsize
    by_contra h
    rw [size_of_not_wide h b] at hsize
    contradiction
  · intro h
    exact h.size b

/-- Two cells are only shown where there are two. -/
theorem stop_le (b : Base) (m : Memory) (a : UInt8) : (rowOf b m a).stop ≤ 256 := by
  have hlt := a.toNat_lt
  change a.toNat + (rowOf b m a).size ≤ 256
  by_cases hwide : Wide m a
  · have hne : a.toNat ≠ 255 := fun h => hwide.not_last (UInt8.toNat.inj h)
    rw [hwide.size b]
    omega
  · rw [size_of_not_wide hwide b]
    exact hlt

/-- Inside memory the cursor has no more than its low byte. -/
theorem stop_rowOf (b : Base) (m : Memory) (h : cursor < 256) :
    (rowOf b m (UInt8.ofNat cursor)).stop = cursor + (rowOf b m (UInt8.ofNat cursor)).size := by
  rw [Row.stop, rowOf, UInt8.toNat_ofNat_of_lt' h]

theorem Row.cells_eq (r : Row) :
    r.cells = (List.range' r.address.toNat r.size).map UInt8.ofNat := by
  rw [cells, List.range'_eq_map_range, List.map_map]
  apply List.map_congr_left
  intro k _
  rw [Function.comp_apply, UInt8.ofNat_add, UInt8.ofNat_toNat]

/-- A row stands for the cells between its own address and that of the next row. -/
theorem Row.cells_append (h : r.stop ≤ 256) :
    r.cells ++ addresses.drop r.stop = addresses.drop r.address.toNat := by
  have hcount : r.size + (256 - r.stop) = 256 - r.address.toNat := by
    rw [stop] at h ⊢
    omega
  rw [r.cells_eq, drop_addresses, drop_addresses, ← List.map_append, stop,
    List.range'_append_1, ← stop, hcount]

theorem rowsFrom_cons (b : Base) (m : Memory) (h : cursor < 256) :
    rowsFrom b m cursor = rowOf b m (UInt8.ofNat cursor) ::
      rowsFrom b m (cursor + (rowOf b m (UInt8.ofNat cursor)).size) := by
  rw [rowsFrom, if_pos h]
  rfl

theorem rowsFrom_end (b : Base) (m : Memory) (h : ¬ cursor < 256) : rowsFrom b m cursor = [] := by
  rw [rowsFrom, if_neg h]

namespace Loop

theorem eq_rowsFrom (h : Loop b m cursor shown stop) : shown = rowsFrom b m cursor := by
  induction h with
  | done hout => rw [rowsFrom_end b m hout]
  | next hin _ ih => rw [rowsFrom_cons b m hin, ih]

/-- No row carries the cursor over the end of memory, so it comes to stand there. -/
theorem stop_eq (h : Loop b m cursor shown stop) (hcursor : cursor ≤ 256) : stop = 256 := by
  induction h with
  | done hout => omega
  | next hin _ ih =>
    apply ih
    rw [← stop_rowOf b m hin]
    exact stop_le b m _

theorem exists_stop (b : Base) (m : Memory) (cursor : ℕ) :
    ∃ stop, Loop b m cursor (rowsFrom b m cursor) stop := by
  induction cursor using rowsFrom.induct b m with
  | case1 cursor hin a ih =>
    obtain ⟨stop, hrest⟩ := ih
    rw [rowsFrom_cons b m hin]
    exact ⟨stop, .next hin hrest⟩
  | case2 cursor hout =>
    rw [rowsFrom_end b m hout]
    exact ⟨cursor, .done hout⟩

theorem eq_rowOf (h : Loop b m cursor shown stop) (hr : r ∈ shown) : r = rowOf b m r.address := by
  induction h with
  | done => contradiction
  | next _ _ ih =>
    rcases List.mem_cons.mp hr with rfl | hr
    · rfl
    · exact ih hr

theorem first (h : Loop b m cursor shown stop) (hr : r ∈ shown.head?) :
    r.address.toNat = cursor := by
  cases h with
  | done => contradiction
  | next hin =>
    obtain rfl : rowOf b m (UInt8.ofNat cursor) = r := by simpa using hr
    exact UInt8.toNat_ofNat_of_lt' hin

theorem linked (h : Loop b m cursor shown stop) :
    shown.IsChain fun r next => next.address.toNat = r.stop := by
  induction h with
  | done => exact .nil
  | next hin hrest ih =>
    rw [List.isChain_cons, stop_rowOf b m hin]
    exact ⟨fun next hnext => hrest.first hnext, ih⟩

/-- The cursor is left behind the last row. -/
theorem last (h : Loop b m cursor shown stop) (hr : r ∈ shown.getLast?) : r.stop = stop := by
  induction h with
  | done => contradiction
  | next hin hrest ih =>
    cases hrest with
    | done =>
      obtain rfl : rowOf b m _ = r := by simpa using hr
      exact stop_rowOf b m hin
    | next hin' hrest' =>
      rw [List.getLast?_cons_cons] at hr
      exact ih hr

theorem cover (h : Loop b m cursor shown stop) : shown.flatMap Row.cells = addresses.drop cursor := by
  induction h with
  | @done cursor hout =>
    rw [drop_addresses, Nat.sub_eq_zero_of_le (Nat.le_of_not_lt hout)]
    rfl
  | @next cursor _ _ hin _ ih =>
    have hcells := Row.cells_append (stop_le b m (UInt8.ofNat cursor))
    rw [List.flatMap_cons, ih, ← stop_rowOf b m hin, hcells]
    exact congrArg addresses.drop (UInt8.toNat_ofNat_of_lt' hin)

end Loop

theorem loop_rows (b : Base) (m : Memory) : Loop b m 0 (rows b m) 256 := by
  obtain ⟨stop, h⟩ := Loop.exists_stop b m 0
  rwa [h.stop_eq (Nat.zero_le 256)] at h

structure Tiled (b : Base) (m : Memory) : Prop where
  loop : ∀ shown stop, Loop b m 0 shown stop ↔ shown = rows b m ∧ stop = 256
  nonempty : rows b m ≠ []
  first : ∀ r ∈ (rows b m).head?, r.address = 0
  sizes : ∀ r ∈ rows b m, r.size = 1 ∨ r.size = 2
  linked : (rows b m).IsChain fun r next => next.address.toNat = r.stop
  last : ∀ r ∈ (rows b m).getLast?, r.stop = 256
  cover : (rows b m).flatMap Row.cells = addresses
  wide : ∀ r ∈ rows b m, r.size = 2 ↔ Wide m r.address

/-- An instruction in the last cell is no exception, nor is one in the last cell but one. -/
theorem rows_tile_memory (b : Base) (m : Memory) : Tiled b m := by
  have hloop := loop_rows b m
  constructor
  · intro shown stop
    constructor
    · intro h
      exact ⟨h.eq_rowsFrom, h.stop_eq (Nat.zero_le 256)⟩
    · rintro ⟨rfl, rfl⟩
      exact hloop
  · rw [rows, rowsFrom_cons b m (by decide)]
    exact List.cons_ne_nil _ _
  · intro r hr
    exact UInt8.toNat.inj (hloop.first hr)
  · intro r hr
    rw [hloop.eq_rowOf hr]
    exact size_cases b m r.address
  · exact hloop.linked
  · intro r hr
    exact hloop.last hr
  · exact hloop.cover
  · intro r hr
    rw [hloop.eq_rowOf hr]
    exact size_eq_two_iff b m r.address

/-- JMP in each of the last three cells: the second is shown as the operand of the first. -/
example : let m := [253, 254, 255].foldl (fun m a => (m.write a 128).setTag a (some .operand)) .empty
    rowsFrom .dec m 253 = [⟨253, 2, "JMP 128".toList, some .operand⟩,
      ⟨255, 1, "JMP 0".toList, some .operand⟩] := by decide +kernel

end AccumulatorMachine.Listing
