import AccumulatorMachine.Text.Upper
import Mathlib.Data.List.DropRight

/-! Trimming yields the texts with no blank at either end, and keeps them as they are. -/
namespace AccumulatorMachine.Text

structure Trimmed (t : Text) : Prop where
  head : ∀ c ∈ t.head?, isBlank c = false
  last : ∀ c ∈ t.getLast?, isBlank c = false

variable {s t : Text} {c : Char}

theorem trimStart_eq_self (h : ∀ c ∈ t.head?, isBlank c = false) : trimStart t = t := by
  cases t with
  | nil => rfl
  | cons c t => exact List.dropWhile_cons_of_neg (by simp [h c rfl])

theorem trimEnd_eq_self (h : ∀ c ∈ t.getLast?, isBlank c = false) : trimEnd t = t := by
  refine List.rdropWhile_eq_self_iff.mpr ?_
  intro hne
  simp [h _ (List.getLast?_eq_getLast_of_ne_nil hne)]

theorem trim_eq_self (h : Trimmed t) : trim t = t := by
  rw [trim, trimStart_eq_self h.head, trimEnd_eq_self h.last]

theorem trimEnd_eq_rdropWhile (t : Text) : trimEnd t = t.rdropWhile isBlank := rfl

theorem trimEnd_isPrefix (t : Text) : trimEnd t <+: t := List.rdropWhile_prefix isBlank t

theorem head_trimStart (t : Text) : ∀ c ∈ (trimStart t).head?, isBlank c = false := by
  intro c hc
  have h := List.head?_dropWhile_not isBlank t
  rw [show t.dropWhile isBlank = trimStart t from rfl, Option.mem_def.mp hc] at h
  exact h

theorem last_trimEnd (t : Text) : ∀ c ∈ (trimEnd t).getLast?, isBlank c = false := by
  intro c hc
  obtain ⟨hne, hlast⟩ := List.mem_getLast?_eq_getLast hc
  have h := List.rdropWhile_last_not isBlank t hne
  simpa [hlast, trimEnd_eq_rdropWhile] using h

theorem trimmed_trim (t : Text) : Trimmed (trim t) := by
  refine ⟨?_, last_trimEnd _⟩
  intro c hc
  apply head_trimStart t
  obtain ⟨rest, hrest⟩ := trimEnd_isPrefix (trimStart t)
  rw [← hrest]
  exact List.mem_head?_append_of_mem_head? hc

theorem mem_of_mem_trim (h : c ∈ trim t) : c ∈ t :=
  List.dropWhile_subset isBlank ((trimEnd_isPrefix _).subset h)

theorem trim_append_blank (t : Text) (hc : isBlank c) : trim (t ++ [c]) = trim t := by
  unfold trim trimStart
  rw [List.dropWhile_append]
  split
  · next h =>
    rw [List.isEmpty_iff] at h
    simp [h, hc, trimEnd]
  · exact List.rdropWhile_concat_pos isBlank _ c hc

theorem trimmed_of_forall (h : ∀ c ∈ t, isBlank c = false) : Trimmed t where
  head c hc := h c (List.mem_of_mem_head? hc)
  last c hc := h c (List.mem_of_mem_getLast? hc)

/-- What stands between two trimmed texts does not matter. -/
theorem Trimmed.surround (hs : Trimmed s) (ht : Trimmed t) (hs' : s ≠ []) (ht' : t ≠ [])
    (between : Text) : Trimmed (s ++ (between ++ t)) where
  head c hc := by
    rw [List.head?_append_of_ne_nil _ hs'] at hc
    exact hs.head c hc
  last c hc := by
    rw [List.getLast?_append_of_ne_nil _ (by simp [ht']), List.getLast?_append_of_ne_nil _ ht'] at hc
    exact ht.last c hc

theorem mem_of_mem_intercalate {texts : List Text} (h : c ∈ s.intercalate texts) :
    c ∈ s ∨ ∃ t ∈ texts, c ∈ t := by
  induction texts with
  | nil => simp at h
  | cons t rest ih =>
    cases rest with
    | nil =>
      rw [List.intercalate_singleton] at h
      exact .inr ⟨t, List.mem_cons_self, h⟩
    | cons next rest =>
      rw [List.intercalate_cons_cons, List.mem_append, List.mem_append] at h
      rcases h with (h | h) | h
      · exact .inr ⟨t, List.mem_cons_self, h⟩
      · exact .inl h
      · rcases ih h with h | ⟨u, hu, h⟩
        · exact .inl h
        · exact .inr ⟨u, List.mem_cons_of_mem t hu, h⟩

end AccumulatorMachine.Text
