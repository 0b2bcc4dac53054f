import AccumulatorMachine.Json.Reader
import AccumulatorMachine.Proofs.Json.Number
import AccumulatorMachine.Proofs.Json.Quoted

/-! The value that is built from a text is the one the grammar says it holds. -/
namespace AccumulatorMachine.Json

mutual

def Tree.found : Tree → Value
  | .null => .word (.ok .null)
  | .bool b => .word (.ok (if b then .true else .false))
  | .number t => .number (numberScan t).value none
  | .string us => .string (decode us) none
  | .list items => .list (foundItems items) none
  | .record members => .record (foundMembers members) none

def foundItems : List Tree → List Value
  | [] => []
  | v :: items => v.found :: foundItems items

def foundMembers : List (List ℕ × Tree) → List (Value × Value)
  | [] => []
  | (key, v) :: members => (.string (decode key) none, v.found) :: foundMembers members

end

open Value (Frame Container Expected Progress build complete)

variable {c : Char} {t t' s s' rest : Text} {v : Tree} {us : List ℕ} {l : Lexeme}
  {items : List Tree} {members : List (List ℕ × Tree)}

theorem flaw_found (v : Tree) : v.found.flaw = none := by cases v <;> rfl

section Lexemes

theorem lex_nil : lex [] = [] := by rw [lex]

theorem lex_space (h : isSpace c) (t : Text) : lex (c :: t) = lex t := by rw [lex, if_pos h]

theorem lex_spaces (h : Spaces s) (t : Text) : lex (s ++ t) = lex t := by
  have hspace : ∀ c ∈ [' ', '\t', '\n', '\r'], isSpace c := by simp [isSpace]
  induction s with
  | nil => rfl
  | cons c s ih =>
    rw [List.cons_append, lex_space (hspace c (h c List.mem_cons_self))]
    exact ih fun d hd => h d (List.mem_cons_of_mem c hd)

theorem lex_lexeme (hc : ¬ isSpace c) (h : lexeme c t = (l, rest)) :
    lex (c :: t) = l :: lex rest := by
  rw [lex, if_neg hc]
  split
  next l' rest' h' =>
    obtain ⟨rfl, rfl⟩ := Prod.mk.inj (h.symm.trans h')
    rfl

def structural? : Char → Option Lexeme
  | '[' => some .openList
  | ']' => some .closeList
  | '\x7b' => some .openRecord
  | '\x7d' => some .closeRecord
  | ',' => some .comma
  | ':' => some .colon
  | _ => none

theorem lex_structural (c : Char) (h : structural? c = some l) (t : Text) :
    lex (c :: t) = l :: lex t := by
  unfold structural? at h
  split at h <;> cases h <;> exact lex_lexeme (by decide) rfl

theorem lex_string (h : Spelled t us) (rest : Text) :
    lex ('"' :: (t ++ '"' :: rest)) = .string (decode us) none :: lex rest := by
  have hscan : StringScan.scan none (t ++ '"' :: rest) = scanned us rest :=
    scan_spelled h (by simp) rest
  refine lex_lexeme (by decide) ?_
  rw [lexeme]
  simp [hscan, scanned, lexeme.ofString]

theorem Number.head (h : Number t) : ∃ c s, t = c :: s ∧ (c = '-' ∨ c.isDigit) := by
  cases h with
  | mk hsign hwhole _ _ =>
    rcases List.mem_pair.mp hsign with rfl | rfl
    · cases hwhole with
      | zero => exact ⟨_, _, rfl, .inr rfl⟩
      | nonzero hd hds => exact ⟨_, _, rfl, .inr (hds.2 _ List.mem_cons_self)⟩
    · exact ⟨_, _, rfl, .inl rfl⟩

theorem lexeme_number (hc : c = '-' ∨ c.isDigit) (t : Text) :
    lexeme c t = lexeme.ofNumber (numberScan (c :: t)) := by
  rcases hc with rfl | hdigit
  · rfl
  · have hne (x : Char) (hx : ¬ x.isDigit) : c ≠ x := by
      rintro rfl
      exact hx hdigit
    have hminus := hne '-' (by decide)
    simp [lexeme, numberScan, hdigit, hminus, hne '[' (by decide), hne ']' (by decide),
      hne '\x7b' (by decide), hne '\x7d' (by decide), hne ',' (by decide), hne ':' (by decide),
      hne '"' (by decide)]

theorem lex_number (h : Number t) (hrest : Begins stops rest) :
    lex (t ++ rest) = .number (numberScan t).value none :: lex rest := by
  have hscan := numberScan_append h hrest
  obtain ⟨c, s, rfl, hc⟩ := h.head
  have hspace : ¬ isSpace c := by
    intro hspace
    simp only [isSpace, Bool.or_eq_true, decide_eq_true_eq] at hspace
    rcases hspace with ((rfl | rfl) | rfl) | rfl <;> exact absurd hc (by decide)
  rw [List.cons_append] at hscan ⊢
  refine lex_lexeme hspace ?_
  rw [lexeme_number hc, hscan]
  rfl

end Lexemes

def resume (frames : List Frame) (v : Value) (ls : List Lexeme) : Value × List Lexeme :=
  match complete frames v with
  | .finished v => (v, ls)
  | .reading frames expected => build frames expected ls

/-- What building makes of a phrase that stands before a rest. That the first lexeme closes no list
tells the items of a list from its end. -/
def Built (rest : Text) : Phrase → Text → Prop
  | .value v, t | .element v, t =>
    Begins stops rest → ∃ l ls, lex (t ++ rest) = l :: ls ∧ l ≠ .closeList ∧
      ∀ frames, build frames .value (l :: ls) = resume frames v.found (lex rest)
  | .elements items, t =>
    ∃ l ls, lex (t ++ ']' :: rest) = l :: ls ∧ l ≠ .closeList ∧
      ∀ frames done, build (.item done :: frames) .value (l :: ls) =
        resume frames (.list (done.reverse ++ foundItems items) none) (lex rest)
  | .member key v, t =>
    Begins stops rest → ∃ ls, lex (t ++ rest) = .string (decode key) none :: ls ∧
      ∀ frames done, build frames (.colon done (.string (decode key) none)) ls =
        resume (.member done (.string (decode key) none) :: frames) v.found (lex rest)
  | .members members, t =>
    ∃ key ls, lex (t ++ '\x7d' :: rest) = .string key none :: ls ∧
      ∀ frames done, build frames (.colon done (.string key none)) ls =
        resume frames (.record (done.reverse ++ foundMembers members) none) (lex rest)

theorem Spaces.begins (hs : Spaces s) (hrest : Begins stops rest) : Begins stops (s ++ rest) := by
  cases s with
  | nil => exact hrest
  | cons c s =>
    refine begins_cons ?_ _
    have hc := hs c List.mem_cons_self
    exact List.mem_append_left [',', ']', '\x7d'] hc

theorem build_firstItem (frames : List Frame) (hl : l ≠ .closeList) (ls : List Lexeme) :
    build frames .firstItem (l :: ls) = build (.item [] :: frames) .value (l :: ls) := by
  have hadvance : Value.advance frames .firstItem l = Value.atValue (.item [] :: frames) l := by
    cases l <;> first | rfl | exact absurd rfl hl
  rw [build, build, hadvance]
  rfl

theorem built_literal (hlex : lex (t ++ rest) = l :: lex rest) (hl : l ≠ .closeList)
    (hvalue : ∀ frames, Value.atValue frames l = complete frames v.found) :
    Built rest (.value v) t := by
  intro _
  refine ⟨l, lex rest, hlex, hl, ?_⟩
  intro frames
  rw [build, Value.advance, hvalue]
  rfl

/-- A list or record with nothing but spaces in it. -/
theorem built_empty {o c : Char} {l' : Lexeme} (hopen : structural? o = some l)
    (hclose : structural? c = some l') (hl : l ≠ .closeList) (hs : Spaces s)
    (hvalue : ∀ frames ls, build frames .value (l :: l' :: ls) = resume frames v.found ls)
    (rest : Text) : Built rest (.value v) (o :: (s ++ [c])) := by
  intro _
  refine ⟨l, l' :: lex rest, ?_, hl, fun frames => hvalue frames _⟩
  rw [List.cons_append, List.append_assoc, lex_structural o hopen, lex_spaces hs]
  exact congrArg _ (lex_structural c hclose rest)

theorem built_list (h : Built rest (.elements items) t) :
    Built rest (.value (.list items)) ('[' :: (t ++ [']'])) := by
  intro _
  obtain ⟨l, ls, hlex, hl, hbuild⟩ := h
  refine ⟨.openList, l :: ls, ?_, by simp, ?_⟩
  · rw [List.cons_append, List.append_assoc, lex_structural '[' rfl]
    exact congrArg _ hlex
  · intro frames
    exact (build_firstItem frames hl ls).trans (hbuild frames [])

theorem built_record (h : Built rest (.members members) t) :
    Built rest (.value (.record members)) ('\x7b' :: (t ++ ['\x7d'])) := by
  intro _
  obtain ⟨key, ls, hlex, hbuild⟩ := h
  refine ⟨.openRecord, .string key none :: ls, ?_, by simp, fun frames => hbuild frames []⟩
  rw [List.cons_append, List.append_assoc, lex_structural '\x7b' rfl]
  exact congrArg _ hlex

theorem built_element (hs : Spaces s) (hs' : Spaces s')
    (h : Built (s' ++ rest) (.value v) t) : Built rest (.element v) (s ++ (t ++ s')) := by
  intro hrest
  obtain ⟨l, ls, hlex, hl, hbuild⟩ := h (hs'.begins hrest)
  refine ⟨l, ls, ?_, hl, ?_⟩
  · rw [List.append_assoc, List.append_assoc, lex_spaces hs, hlex]
  · intro frames
    rw [hbuild, lex_spaces hs']

/-- Behind the last item the list is complete. -/
theorem built_lastElement (h : Built (']' :: rest) (.element v) t) :
    Built rest (.elements [v]) t := by
  obtain ⟨l, ls, hlex, hl, hbuild⟩ := h (begins_cons (by decide) rest)
  refine ⟨l, ls, hlex, hl, ?_⟩
  intro frames done
  have hclose : resume (.item done :: frames) v.found (.closeList :: lex rest) =
      resume frames (.list (v.found :: done).reverse none) (lex rest) := rfl
  rw [hbuild, lex_structural ']' rfl, hclose, List.reverse_cons]
  rfl

/-- Behind another one the list goes on with it among the items that are done. -/
theorem built_elements (h : Built (',' :: (t' ++ ']' :: rest)) (.element v) t)
    (hrest : Built rest (.elements items) t') :
    Built rest (.elements (v :: items)) (t ++ ',' :: t') := by
  obtain ⟨l, ls, hlex, hl, hbuild⟩ := h (begins_cons (by decide) _)
  obtain ⟨l', ls', hlex', -, hbuild'⟩ := hrest
  refine ⟨l, ls, ?_, hl, ?_⟩
  · rw [List.append_assoc]
    exact hlex
  · intro frames done
    have hcomma : resume (.item done :: frames) v.found (.comma :: l' :: ls') =
        build (.item (v.found :: done) :: frames) .value (l' :: ls') := rfl
    rw [hbuild, lex_structural ',' rfl, hlex', hcomma, hbuild', List.reverse_cons,
      List.append_assoc]
    rfl

theorem built_member (hs : Spaces s) (hkey : Spelled t us) (hs' : Spaces s')
    (h : Built rest (.element v) t') :
    Built rest (.member us v) (s ++ '"' :: (t ++ '"' :: (s' ++ ':' :: t'))) := by
  intro hrest
  obtain ⟨l, ls, hlex, -, hbuild⟩ := h hrest
  refine ⟨.colon :: l :: ls, ?_, fun frames done => hbuild _⟩
  simp only [List.append_assoc, List.cons_append]
  rw [lex_spaces hs, lex_string hkey, lex_spaces hs', lex_structural ':' rfl, hlex]

theorem built_lastMember (h : Built ('\x7d' :: rest) (.member us v) t) :
    Built rest (.members [(us, v)]) t := by
  obtain ⟨ls, hlex, hbuild⟩ := h (begins_cons (by decide) rest)
  refine ⟨_, ls, hlex, ?_⟩
  intro frames done
  have hclose : resume (.member done (.string (decode us) none) :: frames) v.found
        (.closeRecord :: lex rest) =
      resume frames (.record ((.string (decode us) none, v.found) :: done).reverse none)
        (lex rest) := rfl
  rw [hbuild, lex_structural '\x7d' rfl, hclose, List.reverse_cons]
  rfl

theorem built_members (h : Built (',' :: (t' ++ '\x7d' :: rest)) (.member us v) t)
    (hrest : Built rest (.members members) t') :
    Built rest (.members ((us, v) :: members)) (t ++ ',' :: t') := by
  obtain ⟨ls, hlex, hbuild⟩ := h (begins_cons (by decide) _)
  obtain ⟨key', ls', hlex', hbuild'⟩ := hrest
  refine ⟨decode us, ls, ?_, ?_⟩
  · rw [List.append_assoc]
    exact hlex
  · intro frames done
    have hcomma : resume (.member done (.string (decode us) none) :: frames) v.found
          (.comma :: .string key' none :: ls') =
        build frames (.colon ((.string (decode us) none, v.found) :: done) (.string key' none))
          ls' := rfl
    rw [hbuild, lex_structural ',' rfl, hlex', hcomma, hbuild', List.reverse_cons,
      List.append_assoc]
    rfl

theorem built {p : Phrase} (h : Written p t) (rest : Text) : Built rest p t := by
  induction h generalizing rest with
  | null => exact built_literal (lex_lexeme (by decide) rfl) (by simp) fun _ => rfl
  | true => exact built_literal (lex_lexeme (by decide) rfl) (by simp) fun _ => rfl
  | false => exact built_literal (lex_lexeme (by decide) rfl) (by simp) fun _ => rfl
  | number h =>
    intro hrest
    exact built_literal (lex_number h hrest) (by simp) (fun _ => rfl) hrest
  | @string t us h =>
    refine built_literal (l := .string (decode us) none) ?_ (by simp) fun _ => rfl
    rw [List.cons_append, List.append_assoc]
    exact lex_string h rest
  | emptyList hs => exact built_empty rfl rfl (by simp) hs (fun _ _ => rfl) rest
  | list _ ih => exact built_list (ih rest)
  | emptyRecord hs => exact built_empty rfl rfl (by simp) hs (fun _ _ => rfl) rest
  | record _ ih => exact built_record (ih rest)
  | element hs _ hs' ih => exact built_element hs hs' (ih _)
  | lastElement _ ih => exact built_lastElement (ih _)
  | elements _ _ ih ihrest => exact built_elements (ih _) (ihrest rest)
  | member hs hkey hs' _ ih => exact built_member hs hkey hs' (ih rest)
  | lastMember _ ih => exact built_lastMember (ih _)
  | members _ _ ih ihrest => exact built_members (ih _) (ihrest rest)

/-- To read a text is to read the value that it holds. -/
theorem readText_of_isText {α : Type} (h : IsText v t) (read : Value → Except Problem α) :
    readText read t = read v.found := by
  obtain ⟨l, ls, hlex, -, hbuild⟩ := built h [] (begins_nil stops)
  rw [List.append_nil] at hlex
  have hwhole : build [] .value (lex t) = (v.found, []) := by
    rw [hlex, hbuild, lex_nil]
    rfl
  unfold readText
  rw [hwhole]
  dsimp only
  cases read v.found <;> rfl

end AccumulatorMachine.Json
