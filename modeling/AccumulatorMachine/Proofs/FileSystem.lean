import AccumulatorMachine.ProgramFile.Store

/-! What has been written to a path is read from it. Writing puts a file where the path leads, and
the directories on the way, which a walk looks at first, stay directories. -/
namespace AccumulatorMachine

theorem FileError.ok_of_bind {α β : Type} {x : Except FileError α} {f : α → Except FileError β}
    {b : β} (h : (x >>= f) = .ok b) : ∃ a, x = .ok a ∧ f a = .ok b := by
  cases x with
  | error err => contradiction
  | ok a => exact ⟨a, rfl, h⟩

namespace FileSystem

variable {fs fs' : FileSystem} {here names target : List String} {bytes : ByteArray}
  {e : Option FileEntry} {path : String}

def replace (fs : FileSystem) (target : List String) (bytes : ByteArray) : FileSystem :=
  ⟨(target, .file bytes) :: fs.entries.filter fun (other, _) => other ≠ target⟩

theorem lookup_filter_ne (entries : List (List String × FileEntry)) (h : names ≠ target) :
    (entries.filter fun (other, _) => other ≠ target).lookup names = entries.lookup names := by
  induction entries with
  | nil => rfl
  | cons entry rest ih =>
    obtain ⟨path, held⟩ := entry
    by_cases hpath : path = target
    · have hskip : (names == path) = false := by simp [hpath, h]
      rw [List.filter_cons_of_neg (by simp [hpath]), ih, List.lookup_cons, hskip]
    · rw [List.filter_cons_of_pos (by simp [hpath]), List.lookup_cons, List.lookup_cons, ih]

theorem entry?_replace_self (ht : fs.entry? target ≠ some .directory) :
    FileSystem.entry? (fs.replace target bytes) target = some (.file bytes) := by
  have hinside : ¬ (target.isEmpty ∨ outside.contains target) := fun hout => ht (if_pos hout)
  unfold entry?
  rw [if_neg hinside]
  simp [replace]

theorem entry?_replace_directory (ht : fs.entry? target ≠ some .directory)
    (h : fs.entry? names = some .directory) :
    FileSystem.entry? (fs.replace target bytes) names = some .directory := by
  have hne : names ≠ target := by
    rintro rfl
    exact ht h
  have hlookup : (fs.replace target bytes).entries.lookup names = fs.entries.lookup names := by
    rw [replace, List.lookup_cons, beq_false_of_ne hne]
    exact lookup_filter_ne fs.entries hne
  unfold entry? at h ⊢
  split at h
  · next hout => rw [if_pos hout]
  · next hin =>
    rw [if_neg hin, hlookup]
    split at h
    · exact h
    · split at h
      · next hany =>
        -- What made it a directory is still there, or has become the file that was written.
        obtain ⟨⟨other, held⟩, hmem, hprefix⟩ := List.any_eq_true.mp hany
        rw [if_pos]
        refine List.any_eq_true.mpr ?_
        by_cases hother : other = target
        · exact ⟨(target, .file bytes), List.mem_cons_self, hother ▸ hprefix⟩
        · refine ⟨(other, held), List.mem_cons_of_mem _ (List.mem_filter.mpr ⟨hmem, ?_⟩), hprefix⟩
          simpa using hother
      · contradiction

theorem walk_last {name : String} (hdot : name ≠ ".") (hup : name ≠ "..")
    (hshort : ¬ 255 < name.utf8ByteSize) :
    fs.walk here [name] = .ok (here ++ [name], fs.entry? (here ++ [name])) := by
  rw [walk.eq_4 _ _ _ _ hdot hup, if_neg hshort]

theorem walk_through {name : String} (hdot : name ≠ ".") (hup : name ≠ "..")
    (hshort : ¬ 255 < name.utf8ByteSize) (hdir : fs.entry? (here ++ [name]) = some .directory)
    (hnames : names ≠ []) : fs.walk here (name :: names) = fs.walk (here ++ [name]) names := by
  rw [walk.eq_4 _ _ _ _ hdot hup, if_neg hshort]
  dsimp only
  rw [hdir]
  cases names with
  | nil => exact absurd rfl hnames
  | cons next rest => rfl

theorem entry?_of_walk (h : fs.walk here names = .ok (target, e)) : fs.entry? target = e := by
  fun_induction walk fs here names with
  | case1 here =>
    obtain ⟨rfl, rfl⟩ := Prod.mk.inj (Except.ok.inj h)
    rfl
  | case2 here names ih | case3 here names ih => exact ih h
  | case4 => contradiction
  | case5 here name =>
    obtain ⟨rfl, rfl⟩ := Prod.mk.inj (Except.ok.inj h)
    rfl
  | case6 here name names _ _ _ there _ _ ih => exact ih h
  | case7 => contradiction
  | case8 => contradiction

/-- A walk to a place where no directory is leads, after the write, to what was written there. -/
theorem walk_replace (h : fs.walk here names = .ok (target, e)) (he : e ≠ some .directory) :
    (fs.replace target bytes).walk here names = .ok (target, some (.file bytes)) := by
  have ht : fs.entry? target ≠ some .directory := by
    rw [entry?_of_walk h]
    exact he
  -- Along the walk: the directories it goes through are directories after the write as well.
  fun_induction walk fs here names with
  | case1 here =>
    obtain ⟨rfl, rfl⟩ := Prod.mk.inj (Except.ok.inj h)
    rw [walk, entry?_replace_self ht]
  | case2 here names ih | case3 here names ih =>
    rw [walk]
    exact ih h
  | case4 => contradiction
  | case5 here name hdot hup hshort there =>
    obtain ⟨rfl, rfl⟩ := Prod.mk.inj (Except.ok.inj h)
    rw [walk_last hdot hup hshort, entry?_replace_self ht]
  | case6 here name names hdot hup hshort there hdir hnames ih =>
    rw [walk_through hdot hup hshort (entry?_replace_directory ht hdir) hnames]
    exact ih h
  | case7 => contradiction
  | case8 => contradiction

theorem findTarget_eq_ok (h : fs.findTarget path = .ok (target, e)) :
    checkPath path = .ok () ∧ leadsToDirectory path = false ∧
      fs.walk (startOf path) (namesOf path) = .ok (target, e) := by
  obtain ⟨⟨⟩, hcheck, hrest⟩ := FileError.ok_of_bind h
  split at hrest
  · obtain ⟨_, _, hdirectory⟩ := FileError.ok_of_bind hrest
    contradiction
  · next hdir => exact ⟨hcheck, by simpa using hdir, hrest⟩

theorem write_eq_ok (h : fs.write path bytes = .ok fs') :
    ∃ target e, fs.findTarget path = .ok (target, e) ∧ e ≠ some .directory ∧
      fs' = fs.replace target bytes := by
  obtain ⟨⟨target, e⟩, htarget, hrest⟩ := FileError.ok_of_bind h
  refine ⟨target, e, htarget, ?_⟩
  split at hrest
  · contradiction
  · next hnot heq =>
    obtain ⟨rfl, rfl⟩ := Prod.mk.inj heq
    refine ⟨?_, (Except.ok.inj hrest).symm⟩
    rintro rfl
    exact hnot rfl

theorem read_write (h : fs.write path bytes = .ok fs') : fs'.read path = .ok bytes := by
  obtain ⟨target, e, htarget, he, rfl⟩ := write_eq_ok h
  obtain ⟨hcheck, hdir, hwalk⟩ := findTarget_eq_ok htarget
  have hread : (fs.replace target bytes).walk (startOf path) (namesOf path) =
      .ok (target, some (.file bytes)) := walk_replace hwalk he
  simp [read, hcheck, hdir, hread, bind, Except.bind]

end FileSystem

end AccumulatorMachine
