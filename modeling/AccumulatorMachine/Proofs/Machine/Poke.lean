import AccumulatorMachine.Proofs.Cache.Interchange
import AccumulatorMachine.Proofs.Machine.Access
import AccumulatorMachine.Proofs.Simulator.Transition

/-! A poke and a step may be interchanged as long as the step does not read the poked cell; if it
stores there, the poke leaves no mark at all. So a run that never reads the cell ends either as if
nothing had been poked, or in its own last state with the poke made there. -/
namespace AccumulatorMachine.Machine

variable {m : Machine} {a x v : UInt8} {i : Fetched} {pc o : UInt8}

theorem fetch_poke (m : Machine) (hne : a ≠ x) (v : UInt8) :
    (m.poke x v).fetch a = ((m.fetch a).1, (m.fetch a).2.poke x v) := by
  have haccess := m.icache.access_patch m.memory hne v
  simp only [fetch, poke, haccess]

theorem load_poke (m : Machine) (hne : a ≠ x) (v : UInt8) :
    (m.poke x v).load a = ((m.load a).1, (m.load a).2.poke x v) := by
  have haccess := m.dcache.access_patch m.memory hne v
  simp only [load, poke, haccess]

theorem store_poke (m : Machine) (a w x v : UInt8) :
    (m.poke x v).store a w = if a = x then m.store a w else (m.store a w).poke x v := by
  by_cases hax : a = x
  · rw [if_pos hax, hax]
    simp only [store, poke, Memory.write_write, BlockCache.patch_patch]
  · rw [if_neg hax]
    have hmemory : ((m.memory.write x v).write a w).setTag a none =
        ((m.memory.write a w).setTag a none).write x v := by
      rw [m.memory.write_comm hax]
      rfl
    simp only [store, poke, hmemory, BlockCache.patch_comm _ hax]

theorem retire_poke (m : Machine) (i : Fetched) (x v : UInt8) :
    (m.poke x v).retire i = (m.retire i).poke x v := by
  rw [retire_frame, retire_frame, trace_record, trace_record]
  rfl

theorem fetchInstruction_poke (hpc : pc ≠ x)
    (hnext : ∀ i, (m.fetchInstruction pc).1 = .ok i → x ∉ i.fetches) (v : UInt8) :
    (m.poke x v).fetchInstruction pc =
      ((m.fetchInstruction pc).1, (m.fetchInstruction pc).2.poke x v) := by
  unfold fetchInstruction at hnext ⊢
  dsimp only at hnext ⊢
  rw [m.fetch_poke hpc v]
  cases hd : Mnemonic.ofOpcode? (m.fetch pc).1 with
  | none => rfl
  | some mnemonic =>
    cases harity : mnemonic.arity with
    | implied => simp only [harity]
    | address =>
      by_cases hlast : pc = 255
      · simp only [harity, if_pos hlast]
      · simp only [hd, harity, if_neg hlast] at hnext
        have hmem := hnext _ rfl
        simp only [Fetched.fetches, harity, if_neg hlast] at hmem
        have hoperand : pc + 1 ≠ x := by
          rintro rfl
          simp at hmem
        simp only [harity, if_neg hlast, fetch_poke _ hoperand]

theorem loadAc_poke (m : Machine) (hne : a ≠ x) (f : UInt8 → UInt8 → UInt8) (v : UInt8) :
    (m.poke x v).loadAc a f = (m.loadAc a f).poke x v := by
  simp only [loadAc, m.load_poke hne v]
  rfl

theorem loadLanes_poke {start : UInt8} (hx : x ∉ (lanes start).map (·.2)) (m : Machine)
    (f : UInt8 → UInt8 → UInt8) (v : UInt8) :
    (m.poke x v).loadLanes start f = (m.loadLanes start f).poke x v := by
  unfold loadLanes
  generalize lanes start = xs at hx ⊢
  induction xs generalizing m with
  | nil => rfl
  | cons y ys ih =>
    obtain ⟨lane, a⟩ := y
    rw [List.map_cons, List.mem_cons, not_or] at hx
    have hload := m.load_poke (Ne.symm hx.1) v
    rw [List.foldl_cons, List.foldl_cons]
    dsimp only
    rw [hload]
    exact ih ((m.load a).2.setLane lane (f (m.regs.vac.get lane) (m.load a).1)) hx.2

/-- The lane that is stored to the poked cell undoes the poke, and no other lane minds it. -/
theorem storeLanes_poke (m : Machine) (start x v : UInt8) :
    (m.poke x v).storeLanes start =
      if x ∈ (lanes start).map (·.2) then m.storeLanes start
      else (m.storeLanes start).poke x v := by
  unfold storeLanes
  induction lanes start generalizing m with
  | nil => rfl
  | cons y ys ih =>
    obtain ⟨lane, a⟩ := y
    have hregs : (m.poke x v).regs = m.regs := rfl
    rw [List.foldl_cons, List.foldl_cons]
    dsimp only
    rw [hregs, m.store_poke, List.map_cons]
    by_cases ha : a = x
    · have hmem : x ∈ a :: ys.map (·.2) := ha ▸ List.mem_cons_self
      rw [if_pos ha, if_pos hmem]
    · have hmem : x ∈ a :: ys.map (·.2) ↔ x ∈ ys.map (·.2) := by
        rw [List.mem_cons, or_iff_right (Ne.symm ha)]
      rw [if_neg ha, ih]
      simp only [hmem]

theorem execute_poke (hx : x ∉ i.loads) (m : Machine) (v : UInt8) :
    (m.poke x v).execute i =
      if x ∈ (i.stores m.regs).map Prod.fst then m.execute i else (m.execute i).poke x v := by
  have hregs : (m.poke x v).regs = m.regs := rfl
  unfold Fetched.loads at hx
  unfold execute Fetched.stores
  cases hm : i.mnemonic with
  | nop | not | jmp | hlt | veadd | vnot => rfl
  | jn =>
    cases hn : m.regs.negative <;>
    · simp only [hregs, hn]
      rfl
  | jz =>
    cases hz : m.regs.zero <;>
    · simp only [hregs, hz]
      rfl
  | sta =>
    simp only [hregs, m.store_poke, List.map_cons, List.map_nil, List.mem_singleton,
      eq_comm (a := x)]
    split <;> rfl
  | lda | add | or | and =>
    simp only [hm, List.mem_singleton] at hx
    dsimp only
    rw [m.loadAc_poke (Ne.symm hx)]
    rfl
  | vld | vadd | vor | vand =>
    simp only [hm] at hx
    dsimp only
    rw [m.loadLanes_poke hx]
    rfl
  | vst =>
    have haddresses : ((lanes (i.operand.getD 0)).map fun y => (y.2, m.regs.vac.get y.1)).map
        Prod.fst = (lanes (i.operand.getD 0)).map (·.2) := by
      rw [List.map_map]
      rfl
    dsimp only
    rw [m.storeLanes_poke, haddresses]
    split <;> rfl

theorem executed_poke (hf : (m.fetchInstruction pc).1 = .ok i) (hx : x ∉ i.fetches ++ i.loads)
    (v : UInt8) :
    ((m.poke x v).fetchInstruction pc).1 = .ok i ∧
    (((m.poke x v).fetchInstruction pc).2.retire i).execute i =
      if x ∈ (i.stores m.regs).map Prod.fst then ((m.fetchInstruction pc).2.retire i).execute i
      else (((m.fetchInstruction pc).2.retire i).execute i).poke x v := by
  obtain ⟨rfl, -⟩ := fetchInstruction_ok hf
  rw [List.mem_append, not_or] at hx
  have hne : i.pc ≠ x := fun h => hx.1 (h ▸ i.pc_mem_fetches)
  have hnext : ∀ j, (m.fetchInstruction i.pc).1 = .ok j → x ∉ j.fetches := by
    intro j hj
    rw [hf] at hj
    exact Except.ok.inj hj ▸ hx.1
  have hregs : ((m.fetchInstruction i.pc).2.retire i).regs = m.regs := by
    rw [retire_frame, fetchInstruction_frame]
  rw [fetchInstruction_poke hne hnext, retire_poke, execute_poke hx.2, hregs]
  exact ⟨hf, rfl⟩

theorem undecoded_poke (hf : (m.fetchInstruction pc).1 = .error o) (hpc : pc ≠ x) (v : UInt8) :
    ((m.poke x v).fetchInstruction pc).1 = .error o := by
  have hnext : ∀ j, (m.fetchInstruction pc).1 = .ok j → x ∉ j.fetches := by
    intro j hj
    rw [hf] at hj
    contradiction
  rw [fetchInstruction_poke hpc hnext]
  exact hf

/-- A step that does not read the poked cell is the same step, and a store to the cell undoes the
poke. -/
theorem step_poke (hc : m.storage.Coherent) (hx : x ∉ m.reads) (v : UInt8) :
    (m.poke x v).step = if x ∈ m.writes then m.step else m.step.poke x v := by
  by_cases hs : m.state = .running
  · have hs' : (m.poke x v).state = .running := hs
    by_cases hpc : m.regs.pc < 256
    · obtain ⟨pc, hnat⟩ := exists_toNat_eq_pc hpc
      -- The poke is not at a fetched byte, so both machines decode the same.
      cases hf : (m.fetchInstruction pc).1 with
      | error o =>
        obtain ⟨hreads, hwrites⟩ := reads_of_error hc hs hnat hf
        rw [hreads, List.mem_singleton] at hx
        have hne : pc ≠ x := Ne.symm hx
        rw [step_of_error hs hnat hf, step_of_error hs' hnat (undecoded_poke hf hne v),
          m.fetch_poke hne, hwrites]
        rfl
      | ok i =>
        obtain ⟨hreads, hwrites⟩ := reads_of_ok hc hs hnat hf
        rw [hreads] at hx
        obtain ⟨hf', hexecuted⟩ := executed_poke hf hx v
        rw [step_of_ok hs hnat hf, step_of_ok hs' hnat hf', hexecuted, hwrites]
    · have hleft := Nat.le_of_not_lt hpc
      rw [step_of_left hs hleft, step_of_left hs' hleft, writes, next?_left hleft]
      rfl
  · have hs' : (m.poke x v).state ≠ .running := hs
    rw [step_stopped hs, step_stopped hs', writes, next?_stopped hs]
    rfl

def ReadsFrom (m : Machine) (x : UInt8) (n : ℕ) : Prop := ∃ k < n, x ∈ (step^[k] m).reads

def StoresTo (m : Machine) (x : UInt8) (n : ℕ) : Prop := ∃ k < n, x ∈ (step^[k] m).writes

instance (m : Machine) (x : UInt8) (n : ℕ) : Decidable (m.ReadsFrom x n) :=
  inferInstanceAs (Decidable (∃ k < n, _))

instance (m : Machine) (x : UInt8) (n : ℕ) : Decidable (m.StoresTo x n) :=
  inferInstanceAs (Decidable (∃ k < n, _))

theorem ReadsFrom.mono {n l : ℕ} (h : m.ReadsFrom x n) (hnl : n ≤ l) : m.ReadsFrom x l := by
  obtain ⟨k, hk, hread⟩ := h
  exact ⟨k, hk.trans_le hnl, hread⟩

theorem readsFrom_succ {n : ℕ} :
    m.ReadsFrom x (n + 1) ↔ m.ReadsFrom x n ∨ x ∈ (step^[n] m).reads :=
  Nat.exists_lt_succ_right

theorem storesTo_succ {n : ℕ} :
    m.StoresTo x (n + 1) ↔ m.StoresTo x n ∨ x ∈ (step^[n] m).writes :=
  Nat.exists_lt_succ_right

theorem coherent_iterate (hc : m.storage.Coherent) (n : ℕ) : (step^[n] m).storage.Coherent := by
  rw [← run_last]
  exact hc.accesses (m.runFrom_accesses 0 n)

/-- A poke is seen at the end of a run that does not read the cell, unless it was stored over. -/
theorem iterate_poke (hc : m.storage.Coherent) {n : ℕ} (hx : ¬ m.ReadsFrom x n) (v : UInt8) :
    step^[n] (m.poke x v) = if m.StoresTo x n then step^[n] m else (step^[n] m).poke x v := by
  induction n with
  | zero =>
    have hnone : ¬ m.StoresTo x 0 := by
      rintro ⟨k, hk, -⟩
      exact Nat.not_lt_zero k hk
    rw [if_neg hnone]
    rfl
  | succ n ih =>
    rw [readsFrom_succ, not_or] at hx
    rw [Function.iterate_succ_apply', Function.iterate_succ_apply', ih hx.1]
    -- Once the cell has been stored over the two runs are one; until then they differ by the poke.
    by_cases hstored : m.StoresTo x n
    · rw [if_pos hstored, if_pos (storesTo_succ.mpr (.inl hstored))]
    · rw [if_neg hstored, step_poke (coherent_iterate hc n) hx.2]
      simp only [storesTo_succ, or_iff_right hstored]

end AccumulatorMachine.Machine
