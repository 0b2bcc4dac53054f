import AccumulatorMachine.Proofs.Json.Reader
import AccumulatorMachine.Proofs.Simulator.Coherence
import AccumulatorMachine.Settings.Document

/-! Documents override the defaults. What a document states replaces a default, in whatever order,
spacing and company of other members it is stated; the first flaw of the outcome is what is
reported. -/
namespace AccumulatorMachine.Settings

open Json (Stated named valuesOf utf16 IsText Spaces Number Spelled Written spelled_utf16
  number_of_digits)

section Shape

def IsBool (v : Json.Tree) (b : Bool) : Prop := v = .bool b

/-- A natural number is stated by its decimal numeral alone. -/
def IsNatural (bound : ℕ) (v : Json.Tree) (n : ℕ) : Prop :=
  v = .number (Nat.toDigits 10 n) ∧ n < bound

def spellings : List (String × Base) :=
  [("Dec", .dec), ("DEC", .dec), ("dec", .dec), ("Hex", .hex), ("HEX", .hex), ("hex", .hex)]

inductive IsBase : Json.Tree → Base → Prop where
  | string {name : String} {b : Base} (h : (name, b) ∈ spellings) :
      IsBase (.string (utf16 name.toList)) b
  | record {name : String} {b : Base} (h : (name, b) ∈ spellings) :
      IsBase (named [(name.toList, .null)]) b

structure General where
  trace : Option Bool
  base : Option Base

structure Caches where
  icache : Option ℕ
  dcache : Option ℕ

structure Document where
  general : Option General
  execution : Option (Option ℕ)
  cache : Option Caches

inductive IsGeneral : Json.Tree → General → Prop where
  | mk {members : List (Text × Json.Tree)} {g : General}
      (htrace : Stated IsBool (valuesOf "trace_instructions" members) g.trace)
      (hbase : Stated IsBase (valuesOf "base" members) g.base) : IsGeneral (named members) g

inductive IsExecution : Json.Tree → Option ℕ → Prop where
  | mk {members : List (Text × Json.Tree)} {guard : Option ℕ}
      (hguard : Stated (IsNatural (2 ^ 32)) (valuesOf "loop_guard" members) guard) :
      IsExecution (named members) guard

/-- A cache that is mentioned has a block size. -/
inductive IsCache : Json.Tree → ℕ → Prop where
  | mk {members : List (Text × Json.Tree)} {size : ℕ}
      (hsize : Stated (IsNatural (2 ^ 64)) (valuesOf "block_bytes" members) (some size)) :
      IsCache (named members) size

inductive IsCaches : Json.Tree → Caches → Prop where
  | mk {members : List (Text × Json.Tree)} {c : Caches}
      (hicache : Stated IsCache (valuesOf "icache" members) c.icache)
      (hdcache : Stated IsCache (valuesOf "dcache" members) c.dcache) : IsCaches (named members) c

inductive IsDocument : Json.Tree → Document → Prop where
  | mk {members : List (Text × Json.Tree)} {d : Document}
      (hgeneral : Stated IsGeneral (valuesOf "general" members) d.general)
      (hexecution : Stated IsExecution (valuesOf "execution" members) d.execution)
      (hcache : Stated IsCaches (valuesOf "cache" members) d.cache) : IsDocument (named members) d

def Document.settings (d : Document) : Settings :=
  let default : Settings := {}
  { traceInstructions := (d.general.bind General.trace).getD default.traceInstructions
    base := (d.general.bind General.base).getD default.base
    loopGuard := d.execution.join.getD default.loopGuard
    icacheBlock := (d.cache.bind Caches.icache).getD default.icacheBlock
    dcacheBlock := (d.cache.bind Caches.dcache).getD default.dcacheBlock }

/-- The powers of two from 1 to 256. -/
def Admissible (size : ℕ) : Prop := 1 ≤ size ∧ size ≤ 256 ∧ size.isPowerOfTwo

end Shape

section Changes

def withTrace (o : Option Bool) (s : Settings) : Settings :=
  { s with traceInstructions := o.getD s.traceInstructions }

def withBase (o : Option Base) (s : Settings) : Settings := { s with base := o.getD s.base }

def withGuard (o : Option ℕ) (s : Settings) : Settings :=
  { s with loopGuard := o.getD s.loopGuard }

def withIcache (o : Option ℕ) (s : Settings) : Settings :=
  { s with icacheBlock := o.getD s.icacheBlock }

def withDcache (o : Option ℕ) (s : Settings) : Settings :=
  { s with dcacheBlock := o.getD s.dcacheBlock }

def withGeneral (o : Option General) : Settings → Settings :=
  withBase (o.bind General.base) ∘ withTrace (o.bind General.trace)

def withCaches (o : Option Caches) : Settings → Settings :=
  withDcache (o.bind Caches.dcache) ∘ withIcache (o.bind Caches.icache)

end Changes

section Reading

variable {v : Json.Tree} {n bound size : ℕ} {b : Base} {guard : Option ℕ} {g : General} {c : Caches}
  {d : Document}

theorem readBool_of_isBool {b : Bool} (h : IsBool v b) : v.found.readBool = .ok b := by
  obtain rfl : v = .bool b := h
  cases b <;> rfl

theorem readNat_of_isNatural (h : IsNatural bound v n) (hbound : bound ≤ 2 ^ 64) :
    v.found.readNat bound = .ok n := by
  obtain ⟨rfl, hn⟩ := h
  rw [Json.Tree.found, Json.value_toDigits (by omega), Json.Value.readNat, if_pos hn]

theorem readBase_of_isBase (h : IsBase v b) : Keyword.readBase v.found = .ok b := by
  have hspelled : ∀ p ∈ spellings, Keyword.base? p.1.toList = some p.2 := by decide
  cases h with
  | string h =>
    have hname := hspelled _ h
    simp [Json.Tree.found, Json.decode_utf16, Keyword.readBase, Json.Value.readName, bind,
      Except.bind, hname]
  | record h =>
    have hname := hspelled _ h
    simp [Json.found_named, Json.keyed, Keyword.readBase, Json.Value.readName, Json.Value.readKey,
      Json.Tree.found, Json.Value.readNull, bind, Except.bind, hname]

theorem read_general (h : IsGeneral v g) (s : Settings) :
    Json.readParts general s v.found = .ok (withGeneral (some g) s) := by
  obtain ⟨htrace, hbase⟩ := h
  refine Json.readParts_named (general.zip [withTrace g.trace, withBase g.base]) ?_ ?_ ?_ ?_ s
  · show ["trace_instructions", "base"].Nodup
    decide
  · exact List.pairwise_pair.mpr fun s => rfl
  · refine List.forall_mem_cons.mpr ⟨?_, List.forall_mem_singleton.mpr ?_⟩
    · exact htrace.reads_put (fun _ _ => readBool_of_isBool) withTrace rfl fun _ _ => rfl
    · exact hbase.reads_put (fun _ _ => readBase_of_isBase) withBase rfl fun _ _ => rfl
  · simp [general]

theorem read_execution (h : IsExecution v guard) (s : Settings) :
    Json.readParts execution s v.found = .ok (withGuard guard s) := by
  obtain ⟨hguard⟩ := h
  refine Json.readParts_single ?_ (by simp) s
  refine hguard.reads_put (fun _ _ h => readNat_of_isNatural h ?_) withGuard rfl fun _ _ => rfl
  decide

theorem read_cache {p : Json.Part Settings} {change : Option ℕ → Settings → Settings}
    (h : IsCache v size) (hname : p.name = "block_bytes") (hnone : change none = id)
    (hput : ∀ s v, p.read s v = v.readNat (2 ^ 64) >>= fun n => pure (change (some n) s))
    (s : Settings) : Json.readParts [p] s v.found = .ok (change (some size) s) := by
  obtain ⟨hsize⟩ := h
  rw [← hname] at hsize
  refine Json.readParts_single ?_ (fun _ => hsize.ne_nil) s
  exact hsize.reads_put (fun _ _ h => readNat_of_isNatural h le_rfl) change hnone hput

theorem read_caches (h : IsCaches v c) (s : Settings) :
    Json.readParts cache s v.found = .ok (withCaches (some c) s) := by
  obtain ⟨hicache, hdcache⟩ := h
  refine Json.readParts_named (cache.zip [withIcache c.icache, withDcache c.dcache])
    ?_ ?_ ?_ ?_ s
  · show ["icache", "dcache"].Nodup
    decide
  · exact List.pairwise_pair.mpr fun s => rfl
  · refine List.forall_mem_cons.mpr ⟨?_, List.forall_mem_singleton.mpr ?_⟩
    · exact hicache.reads withIcache rfl fun _ _ h => read_cache h rfl rfl fun _ _ => rfl
    · exact hdcache.reads withDcache rfl fun _ _ h => read_cache h rfl rfl fun _ _ => rfl
  · simp [cache]

theorem read_document (h : IsDocument v d) :
    Json.readParts document {} v.found = .ok d.settings := by
  obtain ⟨hgeneral, hexecution, hcache⟩ := h
  refine Json.readParts_named (document.zip
    [withGeneral d.general, withGuard d.execution.join, withCaches d.cache]) ?_ ?_ ?_ ?_ {}
  · show ["general", "execution", "cache"].Nodup
    decide
  · refine List.pairwise_cons.mpr ⟨List.forall_mem_cons.mpr ⟨fun s => rfl, ?_⟩, ?_⟩
    · exact List.forall_mem_singleton.mpr fun s => rfl
    · exact List.pairwise_pair.mpr fun s => rfl
  · refine List.forall_mem_cons.mpr ⟨?_, List.forall_mem_cons.mpr ⟨?_, ?_⟩⟩
    · exact hgeneral.reads withGeneral rfl fun _ _ => read_general
    · exact hexecution.reads (fun o => withGuard o.join) rfl fun _ _ => read_execution
    · exact List.forall_mem_singleton.mpr
        (hcache.reads withCaches rfl fun _ _ => read_caches)
  · simp [document]

theorem isBlockSize_iff_admissible : isBlockSize size ↔ Admissible size := by
  rw [isBlockSize_iff]
  constructor
  · rintro ⟨k, hk, rfl⟩
    exact ⟨Nat.two_pow_pos k, Nat.pow_le_pow_right (n := 2) (by decide) hk, k, rfl⟩
  · rintro ⟨-, hle, k, rfl⟩
    exact ⟨k, (Nat.pow_le_pow_iff_right (a := 2) (m := 8) (by decide)).mp hle, rfl⟩

/-- A reader that keeps to the grammar hands on the tree of every text that has one. -/
def Faithful (reader : TextReader) : Prop :=
  ∀ v text, IsText v text → ∀ read, reader read text = read v.found

theorem faithful_readText : Faithful Json.readText := fun _ _ htext => Json.readText_of_isText htext

/-- What a text comes to depends on what it states alone. -/
theorem ofJsonBy_of_isDocument {reader : TextReader} (hreader : Faithful reader) {text : Text}
    (htext : IsText v text) (hdoc : IsDocument v d) :
    ofJsonBy reader text = match d.settings.flaw? with
      | some f => .error (.flawed f)
      | none => .ok d.settings := by
  have hread := (hreader v text htext (Json.readParts document {})).trans (read_document hdoc)
  cases hflaw : d.settings.flaw? <;> simp [ofJsonBy, hread, hflaw]

end Reading

/-- What is stated is admitted as a whole, or refused for its first flaw. Any other reader that keeps
to the grammar would do as well. -/
theorem stated_overrides_default {v : Json.Tree} {text : Text} {d : Document}
    (htext : IsText v text) (hdoc : IsDocument v d) :
    let s := d.settings
    (ofJson text = .ok s ↔ Admissible s.icacheBlock ∧ Admissible s.dcacheBlock ∧ 1 ≤ s.loopGuard) ∧
    (¬ Admissible s.icacheBlock →
      ofJson text = .error (.flawed (.invalidBlockSize .instruction s.icacheBlock))) ∧
    (Admissible s.icacheBlock → ¬ Admissible s.dcacheBlock →
      ofJson text = .error (.flawed (.invalidBlockSize .data s.dcacheBlock))) ∧
    (Admissible s.icacheBlock → Admissible s.dcacheBlock → ¬ 1 ≤ s.loopGuard →
      ofJson text = .error (.flawed .zeroLoopGuard)) ∧
    ∀ reader, Faithful reader → ofJsonBy reader text = ofJson text := by
  have hread : ofJson text = _ := ofJsonBy_of_isDocument faithful_readText htext hdoc
  have hany : ∀ reader, Faithful reader → ofJsonBy reader text = ofJson text :=
    fun reader hreader => (ofJsonBy_of_isDocument hreader htext hdoc).trans hread.symm
  generalize d.settings = s at hread ⊢
  simp only [← isBlockSize_iff_admissible, Bool.not_eq_true, Nat.one_le_iff_ne_zero]
  refine ⟨?_, ?_, ?_, ?_, hany⟩
  · rw [hread, ← flaw?_eq_none_iff]
    cases s.flaw? <;> simp
  · intro hi
    simp [hread, flaw?, hi]
  · intro hi hd
    simp [hread, flaw?, hi, hd]
  · intro hi hd hguard
    simp [hread, flaw?, hi, hd, not_not.mp hguard]

/-- A member that nobody reads, sections out of order, and a name that is escaped. -/
theorem stated_overrides_default_of_shuffled :
    let noise := "\"x\":[1e999,\"\\ud800\"]".toList
    let cache := "\"cache\":\x7b\"dcache\":\x7b\"block_bytes\": 512\x7d\x7d".toList
    let general := "\"general\":\x7b\"\\u0062ase\":\"hex\"\x7d".toList
    let text := '\x7b' :: (noise ++ ',' :: (cache ++ ',' :: general) ++ ['\x7d'])
    let v := named [("x".toList, .list [.number "1e999".toList, .string [0xD800]]),
      ("cache".toList, named [("dcache".toList,
        named [("block_bytes".toList, .number "512".toList)])]),
      ("general".toList, named [("base".toList, .string (utf16 "hex".toList))])]
    let d : Document := ⟨some ⟨none, some .hex⟩, none, some ⟨none, some 512⟩⟩
    IsText v text ∧ IsDocument v d ∧
      ofJson text = .error (.flawed (.invalidBlockSize .data 512)) := by
  intro noise cache general text v d
  have hnone : Spaces [] := by decide
  have hblank : Spaces [' '] := by decide
  have hnumber : Number ([] ++ ("1".toList ++ ([] ++ 'e' :: ([] ++ "999".toList)))) :=
    .mk (by decide) (.nonzero (by decide) (by decide)) .none
      (.some (by decide) (by decide) (by decide))
  have hhalf : Spelled "\\ud800".toList [0xD800] := .cons (.unit_of_all (by decide)) .nil
  have hnoise : Written (.member (utf16 "x".toList) _) noise :=
    .member hnone (spelled_utf16 (t := "x".toList) (by decide)) hnone (.element hnone (.list
      (.elements (.element hnone (.number hnumber) hnone)
        (.lastElement (.element hnone (.string hhalf) hnone)))) hnone)
  have hsize : Number "512".toList := number_of_digits (d := '5') (by decide) (by decide)
  have hblock : Written (.member (utf16 "block_bytes".toList) _) "\"block_bytes\": 512".toList :=
    .member hnone (spelled_utf16 (t := "block_bytes".toList) (by decide)) hnone
      (.element hblank (.number hsize) hnone)
  have hcache : Written (.member (utf16 "cache".toList) _) cache :=
    .member hnone (spelled_utf16 (t := "cache".toList) (by decide)) hnone
      (.element hnone (.record (.lastMember
        (.member hnone (spelled_utf16 (t := "dcache".toList) (by decide)) hnone
          (.element hnone (.record (.lastMember hblock)) hnone)))) hnone)
  have hbase : Spelled "\\u0062ase".toList (utf16 "base".toList) :=
    .cons (.unit_of_all (by decide)) (spelled_utf16 (t := "ase".toList) (by decide))
  have hgeneral : Written (.member (utf16 "general".toList) _) general :=
    .member hnone (spelled_utf16 (t := "general".toList) (by decide)) hnone
      (.element hnone (.record (.lastMember (.member hnone hbase hnone
        (.element hnone (.string (spelled_utf16 (t := "hex".toList) (by decide))) hnone)))) hnone)
  have htext : IsText v text :=
    .element hnone (.record (.members hnoise (.members hcache (.lastMember hgeneral)))) hnone
  have hdoc : IsDocument v d := by
    refine .mk (.once ?_) .absent (.once ?_)
    · exact .mk .absent (.once (.string (by decide)))
    · exact .mk .absent (.once (.mk (.once ⟨rfl, by decide⟩)))
  have hicache : Admissible d.settings.icacheBlock := isBlockSize_iff_admissible.mp (by decide)
  have hdcache : ¬ Admissible d.settings.dcacheBlock := fun h => absurd h.2.1 (by decide)
  obtain ⟨-, -, hdata, -⟩ := stated_overrides_default htext hdoc
  exact ⟨htext, hdoc, hdata hicache hdcache⟩

end AccumulatorMachine.Settings
