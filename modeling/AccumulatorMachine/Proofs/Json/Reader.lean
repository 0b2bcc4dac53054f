import AccumulatorMachine.Proofs.Json.Value
import Mathlib.Data.List.Nodup
import Mathlib.Logic.Function.Conjugate

/-! Records as they are read. Each known name that is there once changes what is read, and changes
that commute make the order of the members as indifferent as the members of other names. -/
namespace AccumulatorMachine.Json

def valuesOf {α : Type} (name : String) (members : List (Text × α)) : List α :=
  (members.filter (·.1 = name.toList)).map Prod.snd

def keyed (members : List (Text × Value)) : List (Value × Value) :=
  members.map fun m => (.string (.ok m.1) none, m.2)

variable {σ : Type}

inductive Part.Reads (p : Part σ) : List Value → (σ → σ) → Prop where
  | absent : Reads p [] id
  | once {v : Value} {change : σ → σ} (h : ∀ s, p.read s v = .ok (change s)) : Reads p [v] change

def changeAll (known : List (Part σ × (σ → σ))) (s : σ) : σ := known.foldl (fun s k => k.2 s) s

structure Readable (known : List (Part σ × (σ → σ))) (seen : List String)
    (members : List (Text × Value)) : Prop where
  names : (known.map fun k => k.1.name).Nodup
  commute : known.Pairwise fun j k => Function.Commute j.2 k.2
  reads : ∀ k ∈ known, k.1.Reads (valuesOf k.1.name members) k.2
  fresh : ∀ k ∈ known, k.1.name ∈ seen → valuesOf k.1.name members = []
  flawless : ∀ m ∈ members, m.2.flaw = none

def settle (name : String) (k : Part σ × (σ → σ)) : Part σ × (σ → σ) :=
  if k.1.name = name then (k.1, id) else k

variable {known : List (Part σ × (σ → σ))} {k : Part σ × (σ → σ)} {members : List (Text × Value)}
  {name : String} {seen : List String} {n : Text} {v : Value}

theorem valuesOf_cons {α : Type} (name : String) (n : Text) (v : α) (members : List (Text × α)) :
    valuesOf name ((n, v) :: members) =
      if n = name.toList then v :: valuesOf name members else valuesOf name members := by
  unfold valuesOf
  rw [List.filter_cons]
  split <;> simp_all

theorem fst_settle (name : String) (k : Part σ × (σ → σ)) : (settle name k).1 = k.1 := by
  unfold settle
  split <;> rfl

theorem map_fst_settle (name : String) (known : List (Part σ × (σ → σ))) :
    (known.map (settle name)).map Prod.fst = known.map Prod.fst := by
  rw [List.map_map]
  exact List.map_congr_left fun k _ => fst_settle name k

theorem names_settle (name : String) (known : List (Part σ × (σ → σ))) :
    (known.map (settle name)).map (fun k => k.1.name) = known.map fun k => k.1.name := by
  rw [List.map_map]
  exact List.map_congr_left fun k _ => congrArg Part.name (fst_settle name k)

theorem commute_settle (h : known.Pairwise fun j k => Function.Commute j.2 k.2) (name : String) :
    (known.map (settle name)).Pairwise fun j k => Function.Commute j.2 k.2 := by
  rw [List.pairwise_map]
  refine h.imp ?_
  intro j k hcomm
  unfold settle
  split
  · exact .id_left
  · split
    · exact .id_right
    · exact hcomm

/-- It does not matter when a change is made. -/
theorem changeAll_settle (hnames : (known.map fun k => k.1.name).Nodup)
    (hcomm : known.Pairwise fun j k => Function.Commute j.2 k.2) (hk : k ∈ known) (s : σ) :
    changeAll (known.map (settle k.1.name)) (k.2 s) = changeAll known s := by
  induction known generalizing s with
  | nil => exact absurd hk List.not_mem_nil
  | cons j rest ih =>
    rw [List.map_cons, List.nodup_cons] at hnames
    rw [List.pairwise_cons] at hcomm
    rcases List.mem_cons.mp hk with rfl | hrest
    · have hothers : rest.map (settle k.1.name) = rest := by
        conv_rhs => rw [← List.map_id rest]
        refine List.map_congr_left fun q hq => if_neg ?_
        intro heq
        exact hnames.1 (heq ▸ List.mem_map_of_mem hq)
      rw [List.map_cons, hothers, settle, if_pos rfl]
      rfl
    · have hne : j.1.name ≠ k.1.name := by
        intro heq
        exact hnames.1 (heq ▸ List.mem_map_of_mem hrest)
      have hswap := hcomm.1 k hrest s
      have htail := ih hnames.2 hcomm.2 hrest (j.2 s)
      rw [List.map_cons, settle, if_neg hne]
      show changeAll (rest.map (settle k.1.name)) (j.2 (k.2 s)) = changeAll rest (j.2 s)
      rw [hswap, htail]

theorem changeAll_absent (h : ∀ k ∈ known, k.2 = id) (s : σ) : changeAll known s = s := by
  induction known with
  | nil => rfl
  | cons k rest ih =>
    have hk := h k List.mem_cons_self
    have htail := ih fun q hq => h q (List.mem_cons_of_mem k hq)
    show changeAll rest (k.2 s) = s
    rw [hk]
    exact htail

theorem Part.Reads.of_nil {p : Part σ} {change : σ → σ} (h : p.Reads [] change) : change = id := by
  cases h
  rfl

theorem Part.Reads.of_cons {p : Part σ} {vs : List Value} {change : σ → σ}
    (h : p.Reads (v :: vs) change) : vs = [] ∧ ∀ s, p.read s v = .ok (change s) := by
  cases h with
  | once h => exact ⟨rfl, h⟩

/-- A member of an unknown name is skipped. -/
theorem readMembers_skip {parts : List (Part σ)}
    (hfind : parts.find? (fun part => part.name.toList = n) = none) (hflaw : v.flaw = none)
    (seen : List String) (s : σ) (members : List (Text × Value)) :
    Part.readMembers parts seen s (keyed ((n, v) :: members)) =
      Part.readMembers parts seen s (keyed members) := by
  simp [keyed, Part.readMembers, Value.readKey, hfind, hflaw]

theorem readMembers_take {parts : List (Part σ)} {p : Part σ} {s t : σ}
    (hfind : parts.find? (fun part => part.name.toList = n) = some p) (hnew : p.name ∉ seen)
    (hread : p.read s v = .ok t) (members : List (Text × Value)) :
    Part.readMembers parts seen s (keyed ((n, v) :: members)) =
      Part.readMembers parts (p.name :: seen) t (keyed members) := by
  simp only [keyed, List.map_cons, Part.readMembers, Value.readKey, hfind, hread,
    List.contains_iff_mem, if_neg hnew]
  rfl

theorem valuesOf_other (hne : name.toList ≠ n) (v : Value) (members : List (Text × Value)) :
    valuesOf name ((n, v) :: members) = valuesOf name members := by
  rw [valuesOf_cons, if_neg hne.symm]

theorem Readable.skip (h : Readable known seen ((n, v) :: members))
    (hother : ∀ k ∈ known, k.1.name.toList ≠ n) : Readable known seen members where
  names := h.names
  commute := h.commute
  reads k hk := valuesOf_other (hother k hk) v members ▸ h.reads k hk
  fresh k hk hseen := valuesOf_other (hother k hk) v members ▸ h.fresh k hk hseen
  flawless m hm := h.flawless m (List.mem_cons_of_mem _ hm)

/-- A name that is there now was not seen before, and does not come again. -/
theorem Readable.once (h : Readable known seen ((k.1.name.toList, v) :: members)) (hk : k ∈ known) :
    k.1.name ∉ seen ∧ (∀ s, k.1.read s v = .ok (k.2 s)) ∧ valuesOf k.1.name members = [] := by
  have hvalues : valuesOf k.1.name ((k.1.name.toList, v) :: members) =
      v :: valuesOf k.1.name members := by
    rw [valuesOf_cons, if_pos rfl]
  obtain ⟨hgone, hread⟩ := (hvalues ▸ h.reads k hk).of_cons
  refine ⟨?_, hread, hgone⟩
  intro hseen
  exact List.cons_ne_nil _ _ (hvalues ▸ h.fresh k hk hseen)

theorem Readable.take (h : Readable known seen ((k.1.name.toList, v) :: members)) (hk : k ∈ known) :
    Readable (known.map (settle k.1.name)) (k.1.name :: seen) members := by
  obtain ⟨-, -, hgone⟩ := h.once hk
  have hother : ∀ j : Part σ × (σ → σ), j.1.name ≠ k.1.name →
      valuesOf j.1.name ((k.1.name.toList, v) :: members) = valuesOf j.1.name members :=
    fun j hne => valuesOf_other (fun heq => hne (String.toList_inj.mp heq)) v members
  refine ⟨names_settle _ known ▸ h.names, commute_settle h.commute _, ?_, ?_, ?_⟩
  · simp only [List.forall_mem_map, fst_settle]
    intro j hj
    unfold settle
    split
    · next heq =>
      rw [heq, hgone]
      exact .absent
    · next hne => exact hother j hne ▸ h.reads j hj
  · simp only [List.forall_mem_map, fst_settle]
    intro j hj hseen
    by_cases heq : j.1.name = k.1.name
    · rw [heq, hgone]
    · exact hother j heq ▸ h.fresh j hj ((List.mem_cons.mp hseen).resolve_left heq)
  · exact fun m hm => h.flawless m (List.mem_cons_of_mem _ hm)

/-- The induction is on the members. What is left to change shrinks with every known member. -/
theorem readMembers_keyed (h : Readable known seen members) (s : σ) :
    ∃ found, Part.readMembers (known.map Prod.fst) seen s (keyed members) =
        .ok (found, changeAll known s) ∧
      ∀ k ∈ known, k.1.name ∈ seen ∨ valuesOf k.1.name members ≠ [] → k.1.name ∈ found := by
  induction members generalizing known seen s with
  | nil =>
    refine ⟨seen, ?_, ?_⟩
    · rw [changeAll_absent fun k hk => (h.reads k hk).of_nil]
      rfl
    · intro k _ hthere
      exact hthere.resolve_right fun hne => hne rfl
  | cons m members ih =>
    obtain ⟨n, v⟩ := m
    cases hfind : (known.map Prod.fst).find? (fun part => part.name.toList = n) with
    | none =>
      have hother : ∀ k ∈ known, k.1.name.toList ≠ n := by
        intro k hk
        simpa using List.find?_eq_none.mp hfind k.1 (List.mem_map_of_mem hk)
      obtain ⟨found, hread, hfound⟩ := ih (h.skip hother) s
      refine ⟨found, ?_, ?_⟩
      · rw [readMembers_skip hfind (h.flawless _ List.mem_cons_self), hread]
      · intro k hk hthere
        exact hfound k hk (valuesOf_other (hother k hk) v members ▸ hthere)
    | some p =>
      obtain ⟨j, hj, rfl⟩ := List.mem_map.mp (List.mem_of_find?_eq_some hfind)
      obtain rfl : j.1.name.toList = n := by simpa using List.find?_some hfind
      obtain ⟨hnew, hchange, -⟩ := h.once hj
      obtain ⟨found, hread, hfound⟩ := ih (h.take hj) (j.2 s)
      refine ⟨found, ?_, ?_⟩
      · rw [readMembers_take hfind hnew (hchange s), ← map_fst_settle j.1.name known, hread,
          changeAll_settle h.names h.commute hj]
      · intro k hk hthere
        have hsettled := hfound _ (List.mem_map_of_mem hk)
        rw [fst_settle] at hsettled
        by_cases heq : k.1.name = j.1.name
        · exact hsettled (.inl (heq ▸ List.mem_cons_self))
        · rw [valuesOf_other fun hlist => heq (String.toList_inj.mp hlist)] at hthere
          exact hsettled (hthere.imp_left (List.mem_cons_of_mem _))

/-- Every name that is required has to be there. -/
theorem readParts_keyed (h : Readable known [] members)
    (hrequired : ∀ k ∈ known, k.1.required → valuesOf k.1.name members ≠ []) (s : σ) :
    readParts (known.map Prod.fst) s (.record (keyed members) none) = .ok (changeAll known s) := by
  obtain ⟨found, hread, hfound⟩ := readMembers_keyed h s
  have hall : (known.map Prod.fst).all fun part => !part.required || found.contains part.name := by
    simp only [List.all_map, List.all_eq_true, Function.comp_apply, Bool.or_eq_true,
      Bool.not_eq_true', List.contains_iff_mem]
    intro k hk
    cases hrequire : k.1.required with
    | false => exact .inl rfl
    | true => exact .inr (hfound k hk (.inr (hrequired k hk hrequire)))
  rw [readParts, hread]
  exact if_pos hall

def named (members : List (Text × Tree)) : Tree := .record (members.map fun m => (utf16 m.1, m.2))

inductive Stated {α : Type} (means : Tree → α → Prop) : List Tree → Option α → Prop where
  | absent : Stated means [] none
  | once {v : Tree} {a : α} (h : means v a) : Stated means [v] (some a)

theorem found_named (members : List (Text × Tree)) :
    (named members).found = .record (keyed (members.map fun m => (m.1, m.2.found))) none := by
  have hmembers : foundMembers (members.map fun m => (utf16 m.1, m.2)) =
      keyed (members.map fun m => (m.1, m.2.found)) := by
    induction members with
    | nil => rfl
    | cons m members ih =>
      rw [List.map_cons, foundMembers, decode_utf16, ih]
      rfl
  exact congrArg (Value.record · none) hmembers

theorem valuesOf_found (name : String) (members : List (Text × Tree)) :
    valuesOf name (members.map fun m => (m.1, m.2.found)) =
      (valuesOf name members).map Tree.found := by
  simp [valuesOf, List.filter_map, Function.comp_def]

section Stated

variable {α : Type} {means : Tree → α → Prop} {vs : List Tree} {o : Option α} {a : α} {p : Part σ}

theorem Stated.reads (h : Stated means vs o) (change : Option α → σ → σ) (hnone : change none = id)
    (hread : ∀ v a, means v a → ∀ s, p.read s v.found = .ok (change (some a) s)) :
    p.Reads (vs.map Tree.found) (change o) := by
  cases h with
  | absent => exact hnone ▸ .absent
  | once h => exact .once (hread _ _ h)

/-- A part that only puts in place what a reader of its values finds. -/
theorem Stated.reads_put {read : Value → Except Problem α} (h : Stated means vs o)
    (hread : ∀ v a, means v a → read v.found = .ok a) (change : Option α → σ → σ)
    (hnone : change none = id)
    (hput : ∀ s v, p.read s v = read v >>= fun a => pure (change (some a) s)) :
    p.Reads (vs.map Tree.found) (change o) := by
  refine h.reads change hnone ?_
  intro v a hmeans s
  rw [hput, hread v a hmeans]
  rfl

theorem Stated.ne_nil (h : Stated means vs (some a)) : vs ≠ [] := by
  cases h
  exact List.cons_ne_nil _ _

end Stated

theorem readParts_named (known : List (Part σ × (σ → σ))) {members : List (Text × Tree)}
    (hnames : (known.map fun k => k.1.name).Nodup)
    (hcomm : known.Pairwise fun j k => Function.Commute j.2 k.2)
    (hreads : ∀ k ∈ known, k.1.Reads ((valuesOf k.1.name members).map Tree.found) k.2)
    (hrequired : ∀ k ∈ known, k.1.required → valuesOf k.1.name members ≠ []) (s : σ) :
    readParts (known.map Prod.fst) s (named members).found = .ok (changeAll known s) := by
  rw [found_named]
  refine readParts_keyed ⟨hnames, hcomm, ?_, ?_, ?_⟩ ?_ s
  · intro k hk
    rw [valuesOf_found]
    exact hreads k hk
  · exact fun k _ hseen => absurd hseen List.not_mem_nil
  · simp only [List.forall_mem_map]
    exact fun m _ => flaw_found m.2
  · intro k hk hrequire
    rw [valuesOf_found, ne_eq, List.map_eq_nil_iff]
    exact hrequired k hk hrequire

theorem readParts_single {members : List (Text × Tree)} {p : Part σ} {change : σ → σ}
    (hreads : p.Reads ((valuesOf p.name members).map Tree.found) change)
    (hrequired : p.required → valuesOf p.name members ≠ []) (s : σ) :
    readParts [p] s (named members).found = .ok (change s) :=
  readParts_named [(p, change)] (List.nodup_singleton _) (List.pairwise_singleton _ _)
    (List.forall_mem_singleton.mpr hreads) (List.forall_mem_singleton.mpr hrequired) s

end AccumulatorMachine.Json
