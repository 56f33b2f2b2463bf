/-
**Keys as strings.**

A cache engine key is written as a string by joining its fields with `@`, and read back by splitting at `@` and
counting the parts.  The fields for the format and for the name of the model are free text: if one of them holds
an `@` there are too many parts, and the string is refused.  The strings of two keys with one format are still
distinct, since the fields behind the name hold no `@`.

A lookup server keeps what it knows of keys in Redis, under their strings.  The client of Redis is a parameter, with
what its documentation says of `GET`, `SET` and `DEL`.

Main definitions:

* `InfiniKV.strOfInt`, `InfiniKV.intOfDec` — `str` and `int` of Python, on integers in base ten;
* `InfiniKV.CacheEngineKey.toString`, `fromString` — the string of a key, and the key of a string;
* `InfiniKV.LayerCacheEngineKey` — a key for one layer, with its own string;
* `InfiniKV.EngineKey` — what the two classes of keys have in common;
* `InfiniKV.Redis`, `InfiniKV.RedisDocumented` — a client of Redis, and its documented behaviour;
* `InfiniKV.RedisLookupServer` — a lookup server, which knows keys by their strings.

Main results:

* `splitOn_intercalate_eq_flatMap` — what joined fields are split into;
* `InfiniKV.intOfDec_strOfInt` — an integer is read back;
* `InfiniKV.RedisLookupServer.lookup_batchedInsert_ne`, `lookup_batchedRemove_ne` — the lookup server does not
  confuse keys;
* `InfiniKV.keyStrings_right_iff` — **when the strings of keys do what they are for**.
-/

import InfiniKV.ConnectorMetadata
import InfiniKV.PyDict

set_option relaxedAutoImplicit false
set_option autoImplicit false

/-! ### Joined fields -/

section Joined

variable {α : Type} [BEq α] [LawfulBEq α] {sep : α}

/-- **Joined fields are split into the parts of each field.** -/
theorem splitOn_intercalate_eq_flatMap {fields : List (List α)} (hne : fields ≠ []) :
    ([sep].intercalate fields).splitOn sep = fields.flatMap (·.splitOn sep) := by
  induction fields with
  | nil => exact absurd rfl hne
  | cons field fields ih =>
      cases fields with
      | nil => rw [List.intercalate_singleton, List.flatMap_singleton]
      | cons field' fields =>
          rw [List.intercalate_cons_cons, List.append_assoc, List.singleton_append, List.splitOn_append_cons_self,
            ih (List.cons_ne_nil _ _)]
          rfl

/-- A list that holds the separator has more than one part. -/
theorem one_lt_length_splitOn {xs : List α} (h : sep ∈ xs) : 1 < (xs.splitOn sep).length := by
  obtain ⟨ys, zs, rfl⟩ := List.append_of_mem h
  rw [List.splitOn_append_cons_self, List.length_append]
  have hys := List.length_pos_iff.2 (List.splitOn_ne_nil sep ys)
  have hzs := List.length_pos_iff.2 (List.splitOn_ne_nil sep zs)
  omega

theorem flatMap_splitOn_of_notMem {fields : List (List α)} (h : ∀ field ∈ fields, sep ∉ field) :
    fields.flatMap (·.splitOn sep) = fields := by
  induction fields with
  | nil => rfl
  | cons field fields ih =>
      rw [List.forall_mem_cons] at h
      rw [List.flatMap_cons, List.splitOn_eq_singleton h.1, ih h.2, List.singleton_append]

omit [LawfulBEq α] in
theorem length_le_length_flatMap_splitOn (fields : List (List α)) :
    fields.length ≤ (fields.flatMap (·.splitOn sep)).length := by
  induction fields with
  | nil => exact le_rfl
  | cons field fields ih =>
      have hpos := List.length_pos_iff.2 (List.splitOn_ne_nil sep field)
      rw [List.flatMap_cons, List.length_append, List.length_cons]
      omega

/-- There are as many parts as fields exactly if no field holds the separator. -/
theorem length_flatMap_splitOn_eq_iff {fields : List (List α)} :
    (fields.flatMap (·.splitOn sep)).length = fields.length ↔ ∀ field ∈ fields, sep ∉ field := by
  constructor
  · intro hlength
    induction fields with
    | nil => simp
    | cons field fields ih =>
        have hpos := List.length_pos_iff.2 (List.splitOn_ne_nil sep field)
        have hle : fields.length ≤ (fields.flatMap (·.splitOn sep)).length :=
          length_le_length_flatMap_splitOn fields
        rw [List.flatMap_cons, List.length_append, List.length_cons] at hlength
        rw [List.forall_mem_cons]
        refine ⟨fun hmem => ?_, ih (by omega)⟩
        have hone := one_lt_length_splitOn hmem
        omega
  · intro h
    rw [flatMap_splitOn_of_notMem h]

/-- Joined fields are split into as many parts exactly if no field holds the separator. -/
theorem length_splitOn_intercalate_eq_iff {fields : List (List α)} (hne : fields ≠ []) :
    (([sep].intercalate fields).splitOn sep).length = fields.length ↔ ∀ field ∈ fields, sep ∉ field := by
  rw [splitOn_intercalate_eq_flatMap hne, length_flatMap_splitOn_eq_iff]

/-- Joined fields are read back if no field holds the separator. -/
theorem splitOn_intercalate_of_notMem {fields : List (List α)} (hne : fields ≠ [])
    (h : ∀ field ∈ fields, sep ∉ field) : ([sep].intercalate fields).splitOn sep = fields := by
  rw [splitOn_intercalate_eq_flatMap hne, flatMap_splitOn_of_notMem h]

/-- Fields that come behind free text can be read off the end, and with them the text. -/
theorem eq_of_intercalate_eq {first text text' : List α} {fields fields' : List (List α)}
    (hlength : fields.length = fields'.length) (hfields : ∀ field ∈ fields, sep ∉ field)
    (hfields' : ∀ field ∈ fields', sep ∉ field)
    (h : [sep].intercalate (first :: text :: fields) = [sep].intercalate (first :: text' :: fields')) :
    text = text' ∧ fields = fields' := by
  rw [List.intercalate_cons_cons, List.intercalate_cons_cons, List.append_cancel_left_eq] at h
  have hparts := congrArg (List.splitOn sep) h
  rw [splitOn_intercalate_eq_flatMap (List.cons_ne_nil _ _), splitOn_intercalate_eq_flatMap (List.cons_ne_nil _ _),
    List.flatMap_cons, List.flatMap_cons, flatMap_splitOn_of_notMem hfields, flatMap_splitOn_of_notMem hfields'] at hparts
  obtain ⟨htext, hrest⟩ := List.append_inj' hparts hlength
  refine ⟨?_, hrest⟩
  calc text = [sep].intercalate (text.splitOn sep) := (List.intercalate_splitOn sep).symm
    _ = [sep].intercalate (text'.splitOn sep) := by rw [htext]
    _ = text' := List.intercalate_splitOn sep

end Joined

namespace InfiniKV

/-! ### Integers as text -/

/-- `str` of an integer. -/
def strOfInt : ℤ → Str
  | .ofNat n => Nat.toDigits 10 n
  | .negSucc n => '-' :: Nat.toDigits 10 (n + 1)

/-- The value of a decimal digit. -/
def decDigitValue (c : Char) : Option ℕ := if c.isDigit then some (c.toNat - '0'.toNat) else none

/-- The value of decimal digits, with single underscores between them. -/
def decDigitsValue : Str → ℕ → Option ℕ
  | [], acc => some acc
  | '_' :: c :: cs, acc => (decDigitValue c).bind fun d => decDigitsValue cs (10 * acc + d)
  | c :: cs, acc => (decDigitValue c).bind fun d => decDigitsValue cs (10 * acc + d)

/-- The value of an unsigned decimal literal. -/
def decLiteralValue : Str → Option ℕ
  | [] => none
  | '_' :: _ => none
  | cs => decDigitsValue cs 0

/-- `int(s)`. -/
def intOfDec (s : Str) : Except PyError ℤ :=
  let stripped := ((s.dropWhile isSpace).reverse.dropWhile isSpace).reverse
  let value : Option ℤ := match stripped with
    | '-' :: cs => (decLiteralValue cs).map fun n : ℕ => -(n : ℤ)
    | '+' :: cs => (decLiteralValue cs).map fun n : ℕ => (n : ℤ)
    | cs => (decLiteralValue cs).map fun n : ℕ => (n : ℤ)
  match value with
  | some n => .ok n
  | none => .error (.valueError "invalid literal for int() with base 10")

/-- A test that tells two characters apart. -/
theorem ne_of_test (test : Char → Bool) {c d : Char} (hc : test c = true) (hd : test d = false) : c ≠ d := by
  rintro rfl
  rw [hc] at hd
  cases hd

/-- What no white space passes is not white space. -/
theorem isSpace_of_test (test : Char → Bool)
    (hspaces : ([' ', '\t', '\n', '\r', '\x0b', '\x0c'].all fun d => !test d) = true) {c : Char}
    (h : test c = true) : isSpace c = false := by
  rw [isSpace, decide_eq_false_iff_not]
  intro hmem
  have hnot := List.all_eq_true.1 hspaces c hmem
  rw [h] at hnot
  cases hnot

theorem isDigit_of_mem_toDigits {n : ℕ} {c : Char} (h : c ∈ Nat.toDigits 10 n) : c.isDigit = true :=
  Nat.isDigit_of_mem_toDigits (by omega) le_rfl h

/-- A row of digits has the value of its digits. -/
theorem decDigitsValue_of_isDigit {cs : Str} (h : ∀ c ∈ cs, c.isDigit = true) (acc : ℕ) :
    decDigitsValue cs acc = some (Nat.ofDigitChars 10 cs acc) := by
  induction cs generalizing acc with
  | nil => rfl
  | cons c cs ih =>
      rw [List.forall_mem_cons] at h
      have hne : c ≠ '_' := ne_of_test Char.isDigit h.1 (by decide)
      have hvalue : decDigitValue c = some (c.toNat - '0'.toNat) := by rw [decDigitValue, if_pos h.1]
      rw [decDigitsValue, hvalue, Option.bind_some, ih h.2, Nat.ofDigitChars_cons]
      · intro c' cs' heq
        exact absurd heq hne

/-- Text without white space is not stripped. -/
theorem strip_of_forall {s : Str} (h : ∀ c ∈ s, isSpace c = false) :
    ((s.dropWhile isSpace).reverse.dropWhile isSpace).reverse = s := by
  have hkeep : ∀ t : Str, (∀ c ∈ t, isSpace c = false) → t.dropWhile isSpace = t := by
    intro t ht
    cases t with
    | nil => rfl
    | cons c t => rw [List.dropWhile_cons, ht c List.mem_cons_self, if_neg Bool.false_ne_true]
  rw [hkeep s h, hkeep s.reverse fun c hc => h c (List.mem_reverse.1 hc), List.reverse_reverse]

theorem isSpace_of_isDigit {c : Char} (h : c.isDigit = true) : isSpace c = false :=
  isSpace_of_test Char.isDigit (by decide) h

/-- The digits of a natural number are read back. -/
theorem decLiteralValue_toDigits (n : ℕ) : decLiteralValue (Nat.toDigits 10 n) = some n := by
  have hdigits : ∀ c ∈ Nat.toDigits 10 n, c.isDigit = true := fun c hc => isDigit_of_mem_toDigits hc
  cases hchars : Nat.toDigits 10 n with
  | nil => exact absurd hchars Nat.toDigits_ne_nil
  | cons c cs =>
      rw [hchars] at hdigits
      have hne : c ≠ '_' := ne_of_test Char.isDigit (hdigits c List.mem_cons_self) (by decide)
      rw [decLiteralValue, decDigitsValue_of_isDigit hdigits, ← hchars, Nat.ofDigitChars_ten_toDigits]
      · intro heq
        cases heq
      · intro cs' heq
        exact absurd (List.cons.inj heq).1 hne

/-- **An integer is read back from its text.** -/
theorem intOfDec_strOfInt (n : ℤ) : intOfDec (strOfInt n) = .ok n := by
  cases n with
  | ofNat m =>
      have hspace : ∀ c ∈ strOfInt (.ofNat m), isSpace c = false := fun c hc =>
        isSpace_of_isDigit (isDigit_of_mem_toDigits hc)
      rw [intOfDec, strip_of_forall hspace, strOfInt]
      cases hchars : Nat.toDigits 10 m with
      | nil => exact absurd hchars Nat.toDigits_ne_nil
      | cons c cs =>
          have hc : c.isDigit = true := isDigit_of_mem_toDigits (hchars ▸ List.mem_cons_self)
          have hminus : c ≠ '-' := ne_of_test Char.isDigit hc (by decide)
          have hplus : c ≠ '+' := ne_of_test Char.isDigit hc (by decide)
          have hvalue := decLiteralValue_toDigits m
          rw [hchars] at hvalue
          simp [hminus, hplus, hvalue]
  | negSucc m =>
      have hspace : ∀ c ∈ strOfInt (.negSucc m), isSpace c = false := by
        refine List.forall_mem_cons.2 ⟨by decide, fun c hc => isSpace_of_isDigit (isDigit_of_mem_toDigits hc)⟩
      rw [intOfDec, strip_of_forall hspace, strOfInt]
      simp only [decLiteralValue_toDigits, Option.map_some]
      rfl

/-- The text of an integer holds no separator. -/
theorem notMem_strOfInt (n : ℤ) : '@' ∉ strOfInt n := by
  have hdigits : ∀ (m : ℕ), '@' ∉ Nat.toDigits 10 m := fun m hmem =>
    absurd (isDigit_of_mem_toDigits hmem) (by decide)
  cases n with
  | ofNat m => exact hdigits m
  | negSucc m =>
      rw [strOfInt, List.mem_cons, not_or]
      exact ⟨by decide, hdigits (m + 1)⟩

/-! ### Keys -/

/-- All characters are hexadecimal digits. -/
def IsHex (s : Str) : Prop := ∀ c ∈ s, (hexDigitValue c).isSome = true

instance (s : Str) : Decidable (IsHex s) := List.decidableBAll (fun c => (hexDigitValue c).isSome = true) s

theorem IsHex.notMem {s : Str} (h : IsHex s) : '@' ∉ s := fun hmem => absurd (h '@' hmem) (by decide)

/-- A key for one layer. -/
structure LayerCacheEngineKey extends CacheEngineKey where
  layerId : ℤ
  deriving DecidableEq

/-- What a string that is not the string of a key is refused with. -/
def invalidKeyString (s : Str) : PyError := .valueError ("Invalid key string: " ++ String.ofList s)

namespace CacheEngineKey

/-- **`to_string`**. -/
def toString (k : CacheEngineKey) : Str :=
  k.fmt ++ '@' :: (k.modelName ++ '@' :: (strOfInt k.worldSize ++ '@' :: (strOfInt k.workerId ++ '@' :: k.chunkHash)))

/-- **`from_string`**. -/
def fromString (s : Str) : Except PyError CacheEngineKey :=
  match s.splitOn '@' with
  | [fmt, modelName, worldSize, workerId, chunkHash] => do
      let worldSize ← intOfDec worldSize
      let workerId ← intOfDec workerId
      .ok ⟨fmt, modelName, worldSize, workerId, chunkHash⟩
  | _ => .error (invalidKeyString s)

/-- The fields of a key, behind the format and the name of the model. -/
def rest (k : CacheEngineKey) : List Str := [strOfInt k.worldSize, strOfInt k.workerId, k.chunkHash]

theorem toString_eq (k : CacheEngineKey) : k.toString = ['@'].intercalate (k.fmt :: k.modelName :: k.rest) := by
  simp [toString, rest, List.intercalate_cons_cons]

end CacheEngineKey

namespace LayerCacheEngineKey

/-- **`to_string`**. -/
def toString (k : LayerCacheEngineKey) : Str :=
  k.fmt ++ '@' :: (k.modelName ++ '@' :: (strOfInt k.worldSize ++ '@' :: (strOfInt k.workerId ++ '@' ::
    (k.chunkHash ++ '@' :: strOfInt k.layerId))))

/-- **`from_string`**. -/
def fromString (s : Str) : Except PyError LayerCacheEngineKey :=
  match s.splitOn '@' with
  | [fmt, modelName, worldSize, workerId, chunkHash, layerId] => do
      let worldSize ← intOfDec worldSize
      let workerId ← intOfDec workerId
      let layerId ← intOfDec layerId
      .ok ⟨⟨fmt, modelName, worldSize, workerId, chunkHash⟩, layerId⟩
  | _ => .error (invalidKeyString s)

/-- The fields of a key, behind the format and the name of the model. -/
def rest (k : LayerCacheEngineKey) : List Str := k.toCacheEngineKey.rest ++ [strOfInt k.layerId]

theorem toString_eq (k : LayerCacheEngineKey) :
    k.toString = ['@'].intercalate (k.fmt :: k.modelName :: k.rest) := by
  simp [toString, rest, CacheEngineKey.rest, List.intercalate_cons_cons]

end LayerCacheEngineKey

/-! ### Reading a key back -/

theorem CacheEngineKey.notMem_rest {k : CacheEngineKey} (hhex : IsHex k.chunkHash) : ∀ field ∈ k.rest, '@' ∉ field := by
  rw [CacheEngineKey.rest, List.forall_mem_cons, List.forall_mem_cons, List.forall_mem_singleton]
  exact ⟨notMem_strOfInt _, notMem_strOfInt _, hhex.notMem⟩

theorem LayerCacheEngineKey.notMem_rest {k : LayerCacheEngineKey} (hhex : IsHex k.chunkHash) :
    ∀ field ∈ k.rest, '@' ∉ field := by
  rw [LayerCacheEngineKey.rest, List.forall_mem_append, List.forall_mem_singleton]
  exact ⟨CacheEngineKey.notMem_rest hhex, notMem_strOfInt _⟩

/-- The fields behind the name of the model determine the key, with these two. -/
theorem CacheEngineKey.eq_of_rest_eq {k k' : CacheEngineKey} (hfmt : k.fmt = k'.fmt)
    (hname : k.modelName = k'.modelName) (hrest : k.rest = k'.rest) : k = k' := by
  simp only [CacheEngineKey.rest, List.cons.injEq, and_true] at hrest
  obtain ⟨hworld, hworker, hhash⟩ := hrest
  have hworld' := congrArg intOfDec hworld
  have hworker' := congrArg intOfDec hworker
  rw [intOfDec_strOfInt, intOfDec_strOfInt, Except.ok.injEq] at hworld' hworker'
  cases k
  cases k'
  simp_all

theorem LayerCacheEngineKey.eq_of_rest_eq {k k' : LayerCacheEngineKey} (hfmt : k.fmt = k'.fmt)
    (hname : k.modelName = k'.modelName) (hrest : k.rest = k'.rest) : k = k' := by
  obtain ⟨hkey, hlayer⟩ := List.append_inj' hrest rfl
  have hlayer' := congrArg intOfDec (List.cons.inj hlayer).1
  rw [intOfDec_strOfInt, intOfDec_strOfInt, Except.ok.injEq] at hlayer'
  have hkey' := CacheEngineKey.eq_of_rest_eq hfmt hname hkey
  cases k
  cases k'
  dsimp only at hkey' hlayer'
  rw [hkey', hlayer']

/-- **When a key is read back from its string.** -/
theorem CacheEngineKey.fromString_toString_iff {k : CacheEngineKey} (hhex : IsHex k.chunkHash) :
    CacheEngineKey.fromString k.toString = .ok k ↔ '@' ∉ k.fmt ∧ '@' ∉ k.modelName := by
  have hfree : (∀ field ∈ k.fmt :: k.modelName :: k.rest, '@' ∉ field) ↔ '@' ∉ k.fmt ∧ '@' ∉ k.modelName := by
    rw [List.forall_mem_cons, List.forall_mem_cons, and_iff_left (CacheEngineKey.notMem_rest hhex)]
  rw [← hfree]
  constructor
  · intro h
    rw [← length_splitOn_intercalate_eq_iff (List.cons_ne_nil _ _), ← k.toString_eq]
    rw [CacheEngineKey.fromString] at h
    split at h
    · rename_i heq
      rw [heq]
      rfl
    · cases h
  · intro hnotMem
    rw [CacheEngineKey.fromString, k.toString_eq, splitOn_intercalate_of_notMem (List.cons_ne_nil _ _) hnotMem, CacheEngineKey.rest]
    dsimp only
    rw [intOfDec_strOfInt, intOfDec_strOfInt]
    rfl

/-- **When a key for a layer is read back from its string.** -/
theorem LayerCacheEngineKey.fromString_toString_iff {k : LayerCacheEngineKey} (hhex : IsHex k.chunkHash) :
    LayerCacheEngineKey.fromString k.toString = .ok k ↔ '@' ∉ k.fmt ∧ '@' ∉ k.modelName := by
  have hfree : (∀ field ∈ k.fmt :: k.modelName :: k.rest, '@' ∉ field) ↔ '@' ∉ k.fmt ∧ '@' ∉ k.modelName := by
    rw [List.forall_mem_cons, List.forall_mem_cons, and_iff_left (LayerCacheEngineKey.notMem_rest hhex)]
  rw [← hfree]
  constructor
  · intro h
    rw [← length_splitOn_intercalate_eq_iff (List.cons_ne_nil _ _), ← k.toString_eq]
    rw [LayerCacheEngineKey.fromString] at h
    split at h
    · rename_i heq
      rw [heq]
      rfl
    · cases h
  · intro hnotMem
    rw [LayerCacheEngineKey.fromString, k.toString_eq, splitOn_intercalate_of_notMem (List.cons_ne_nil _ _) hnotMem, LayerCacheEngineKey.rest, CacheEngineKey.rest]
    dsimp only [List.cons_append, List.nil_append]
    rw [intOfDec_strOfInt, intOfDec_strOfInt, intOfDec_strOfInt]
    rfl

/-! ### Telling keys apart -/

/-- **Two keys with one format have distinct strings**, unless they are the same. -/
theorem CacheEngineKey.eq_of_toString_eq {k k' : CacheEngineKey} (hhex : IsHex k.chunkHash)
    (hhex' : IsHex k'.chunkHash) (hfmt : k.fmt = k'.fmt) (h : k.toString = k'.toString) : k = k' := by
  rw [k.toString_eq, k'.toString_eq, hfmt] at h
  obtain ⟨hname, hrest⟩ := eq_of_intercalate_eq (show k.rest.length = k'.rest.length from rfl)
    (CacheEngineKey.notMem_rest hhex) (CacheEngineKey.notMem_rest hhex') h
  exact CacheEngineKey.eq_of_rest_eq hfmt hname hrest

/-- **Two keys for layers with one format have distinct strings**, unless they are the same. -/
theorem LayerCacheEngineKey.eq_of_toString_eq {k k' : LayerCacheEngineKey} (hhex : IsHex k.chunkHash)
    (hhex' : IsHex k'.chunkHash) (hfmt : k.fmt = k'.fmt) (h : k.toString = k'.toString) : k = k' := by
  rw [k.toString_eq, k'.toString_eq, hfmt] at h
  obtain ⟨hname, hrest⟩ := eq_of_intercalate_eq (show k.rest.length = k'.rest.length from rfl)
    (LayerCacheEngineKey.notMem_rest hhex) (LayerCacheEngineKey.notMem_rest hhex') h
  exact LayerCacheEngineKey.eq_of_rest_eq hfmt hname hrest

/-! ### The lookup server -/

/-- What the classes of keys have in common. -/
class EngineKey (κ : Type) where
  fmt : κ → Str
  modelName : κ → Str
  chunkHash : κ → Str
  toString : κ → Str
  fromString : Str → Except PyError κ

instance : EngineKey CacheEngineKey where
  fmt := CacheEngineKey.fmt
  modelName := CacheEngineKey.modelName
  chunkHash := CacheEngineKey.chunkHash
  toString := CacheEngineKey.toString
  fromString := CacheEngineKey.fromString

instance : EngineKey LayerCacheEngineKey where
  fmt := fun k => k.fmt
  modelName := fun k => k.modelName
  chunkHash := fun k => k.chunkHash
  toString := LayerCacheEngineKey.toString
  fromString := LayerCacheEngineKey.fromString

/-- A client of Redis, for databases of type `σ`. -/
class Redis (σ : Type) where
  get : σ → Str → Option Str
  set : σ → Str → Str → σ
  delete : σ → List Str → Except PyError σ

/-- The documented behaviour: a string is kept under one key, `DEL` deletes its keys and no others, and does not fail
with one key. -/
structure RedisDocumented (σ : Type) [Redis σ] : Prop where
  get_set : ∀ (db : σ) (key value key' : Str),
    Redis.get (Redis.set db key value) key' = if key' = key then some value else Redis.get db key'
  get_delete : ∀ (db db' : σ) (keys : List Str) (key' : Str), Redis.delete db keys = .ok db' →
    Redis.get db' key' = if key' ∈ keys then none else Redis.get db key'
  delete_ok : ∀ (db : σ) (key : Str), ∃ db', Redis.delete db [key] = .ok db'

/-- A lookup server.  `connection` is the database it is connected to. -/
structure RedisLookupServer (σ : Type) where
  distributedUrl : Option Str
  connection : σ

namespace RedisLookupServer

variable {σ κ : Type} [Redis σ] [EngineKey κ]

/-- **`lookup`**. -/
def lookup (server : RedisLookupServer σ) (key : κ) : Except PyError (Option (Str × ℤ)) :=
  match Redis.get server.connection (EngineKey.toString key) with
  | none => .ok none
  | some url =>
      match url.splitOn ':' with
      | [host, port] => (intOfDec port).map fun port => some (host, port)
      | _ => .error (.valueError "wrong number of values to unpack")

/-- **`insert`**. -/
def insert (server : RedisLookupServer σ) (key : κ) : Except PyError (RedisLookupServer σ) :=
  match server.distributedUrl with
  | none => .error (.assertionError "")
  | some url => .ok { server with connection := Redis.set server.connection (EngineKey.toString key) url }

/-- **`batched_insert`**. -/
def batchedInsert (server : RedisLookupServer σ) (keys : List κ) : Except PyError (RedisLookupServer σ) :=
  match server.distributedUrl with
  | none => .error (.assertionError "")
  | some url =>
      .ok { server with
        connection := keys.foldl (fun connection key => Redis.set connection (EngineKey.toString key) url)
          server.connection }

/-- **`remove`**. -/
def remove (server : RedisLookupServer σ) (key : κ) : Except PyError (RedisLookupServer σ) :=
  (Redis.delete server.connection [EngineKey.toString key]).map fun connection => { server with connection := connection }

/-- **`batched_remove`**. -/
def batchedRemove (server : RedisLookupServer σ) (keys : List κ) : Except PyError (RedisLookupServer σ) :=
  (Redis.delete server.connection (keys.map EngineKey.toString)).map fun connection =>
    { server with connection := connection }

/-- Keys are looked up by their strings. -/
theorem lookup_congr {server server' : RedisLookupServer σ} {key : κ}
    (h : Redis.get server'.connection (EngineKey.toString key) = Redis.get server.connection (EngineKey.toString key)) :
    server'.lookup key = server.lookup key := by
  rw [lookup, lookup, h]

/-- One insertion is a batch. -/
theorem insert_eq (server : RedisLookupServer σ) (key : κ) : server.insert key = server.batchedInsert [key] := rfl

/-- One removal is a batch. -/
theorem remove_eq (server : RedisLookupServer σ) (key : κ) : server.remove key = server.batchedRemove [key] := rfl

/-- **A batch of insertions changes nothing for a key with another string.** -/
theorem lookup_batchedInsert_ne (hredis : RedisDocumented σ) {server server' : RedisLookupServer σ} {keys : List κ}
    {key' : κ} (hne : ∀ key ∈ keys, EngineKey.toString key' ≠ EngineKey.toString key)
    (h : server.batchedInsert keys = .ok server') : server'.lookup key' = server.lookup key' := by
  have hfold : ∀ (url : Str) (connection : σ),
      Redis.get (keys.foldl (fun connection key => Redis.set connection (EngineKey.toString key) url) connection)
          (EngineKey.toString key')
        = Redis.get connection (EngineKey.toString key') := by
    intro url
    clear h
    induction keys with
    | nil => exact fun _ => rfl
    | cons key keys ih =>
        intro connection
        rw [List.forall_mem_cons] at hne
        rw [List.foldl_cons, ih hne.2, hredis.get_set, if_neg hne.1]
  rw [batchedInsert] at h
  cases hurl : server.distributedUrl with
  | none =>
      rw [hurl] at h
      cases h
  | some url =>
      rw [hurl] at h
      cases h
      exact lookup_congr (hfold url server.connection)

/-- **A batch of removals changes nothing for a key with another string.** -/
theorem lookup_batchedRemove_ne (hredis : RedisDocumented σ) {server server' : RedisLookupServer σ} {keys : List κ}
    {key' : κ} (hne : ∀ key ∈ keys, EngineKey.toString key' ≠ EngineKey.toString key)
    (h : server.batchedRemove keys = .ok server') : server'.lookup key' = server.lookup key' := by
  have hnotMem : EngineKey.toString key' ∉ keys.map EngineKey.toString := by
    intro hmem
    obtain ⟨key, hkey, heq⟩ := List.mem_map.1 hmem
    exact hne key hkey heq.symm
  rw [batchedRemove] at h
  cases hdelete : Redis.delete server.connection (keys.map EngineKey.toString) with
  | error e =>
      rw [hdelete] at h
      cases h
  | ok connection =>
      rw [hdelete] at h
      cases h
      refine lookup_congr ?_
      rw [hredis.get_delete _ _ _ _ hdelete, if_neg hnotMem]

/-- A key is removed without a failure. -/
theorem remove_ok (hredis : RedisDocumented σ) (server : RedisLookupServer σ) (key : κ) :
    ∃ server', server.remove key = .ok server' := by
  obtain ⟨connection, hdelete⟩ := hredis.delete_ok server.connection (EngineKey.toString key)
  exact ⟨{ server with connection := connection }, by rw [remove, hdelete]; rfl⟩

end RedisLookupServer

/-! ### What the strings of keys are for -/

/-- **The strings do what they are for, at a key**: the key is read back from its string, no other key of its class
and format has that string, and what the lookup server knows about the other keys is not touched by what is done
for this one, nor what it knows about this one by what is done for batches of others. -/
structure StringRight (σ : Type) [Redis σ] {κ : Type} [EngineKey κ] (k : κ) : Prop where
  fromString_toString : EngineKey.fromString (EngineKey.toString k) = .ok k
  toString_inj : ∀ k' : κ, IsHex (EngineKey.chunkHash k') → EngineKey.fmt k' = EngineKey.fmt k →
    EngineKey.toString k' = EngineKey.toString k → k' = k
  lookup_insert : ∀ (server server' : RedisLookupServer σ) (k' : κ), IsHex (EngineKey.chunkHash k') →
    EngineKey.fmt k' = EngineKey.fmt k → k' ≠ k → server.insert k = .ok server' → server'.lookup k' = server.lookup k'
  lookup_remove : ∀ (server : RedisLookupServer σ) (k' : κ), IsHex (EngineKey.chunkHash k') →
    EngineKey.fmt k' = EngineKey.fmt k → k' ≠ k →
      ∃ server', server.remove k = .ok server' ∧ server'.lookup k' = server.lookup k'
  lookup_batchedInsert : ∀ (server server' : RedisLookupServer σ) (keys : List κ),
    (∀ k' ∈ keys, IsHex (EngineKey.chunkHash k') ∧ EngineKey.fmt k' = EngineKey.fmt k ∧ k' ≠ k) →
      server.batchedInsert keys = .ok server' → server'.lookup k = server.lookup k
  lookup_batchedRemove : ∀ (server server' : RedisLookupServer σ) (keys : List κ),
    (∀ k' ∈ keys, IsHex (EngineKey.chunkHash k') ∧ EngineKey.fmt k' = EngineKey.fmt k ∧ k' ≠ k) →
      server.batchedRemove keys = .ok server' → server'.lookup k = server.lookup k

/-- Only reading a key back can go wrong. -/
theorem stringRight_iff {σ : Type} [Redis σ] (hredis : RedisDocumented σ) {κ : Type} [EngineKey κ] {k : κ}
    (hinj : ∀ k' : κ, IsHex (EngineKey.chunkHash k') → EngineKey.fmt k' = EngineKey.fmt k →
      EngineKey.toString k' = EngineKey.toString k → k' = k) :
    StringRight σ k ↔ EngineKey.fromString (EngineKey.toString k) = .ok k := by
  have hothers : ∀ keys : List κ,
      (∀ k' ∈ keys, IsHex (EngineKey.chunkHash k') ∧ EngineKey.fmt k' = EngineKey.fmt k ∧ k' ≠ k) →
        ∀ k' ∈ keys, EngineKey.toString k ≠ EngineKey.toString k' := by
    intro keys hkeys k' hk' heq
    obtain ⟨hhex, hfmt, hne⟩ := hkeys k' hk'
    exact hne (hinj k' hhex hfmt heq.symm)
  refine ⟨fun h => h.fromString_toString, fun h => ⟨h, hinj, ?_, ?_, ?_, ?_⟩⟩
  · intro server server' k' hhex hfmt hne hinsert
    rw [RedisLookupServer.insert_eq] at hinsert
    refine RedisLookupServer.lookup_batchedInsert_ne hredis (fun key hkey heq => ?_) hinsert
    rw [List.mem_singleton.1 hkey] at heq
    exact hne (hinj k' hhex hfmt heq)
  · intro server k' hhex hfmt hne
    obtain ⟨server', hremove⟩ := RedisLookupServer.remove_ok hredis server k
    refine ⟨server', hremove, ?_⟩
    rw [RedisLookupServer.remove_eq] at hremove
    refine RedisLookupServer.lookup_batchedRemove_ne hredis (fun key hkey heq => ?_) hremove
    rw [List.mem_singleton.1 hkey] at heq
    exact hne (hinj k' hhex hfmt heq)
  · intro server server' keys hkeys hinsert
    exact RedisLookupServer.lookup_batchedInsert_ne hredis (hothers keys hkeys) hinsert
  · intro server server' keys hkeys hremove
    exact RedisLookupServer.lookup_batchedRemove_ne hredis (hothers keys hkeys) hremove

/-- **The strings do what they are for at the keys whose format and name of the model hold no separator.** -/
theorem keyStrings_right_iff {σ : Type} [Redis σ] (hredis : RedisDocumented σ) (k : CacheEngineKey)
    (l : LayerCacheEngineKey) (hk : IsHex k.chunkHash) (hl : IsHex l.chunkHash) :
    (StringRight σ k ↔ '@' ∉ k.fmt ∧ '@' ∉ k.modelName) ∧ (StringRight σ l ↔ '@' ∉ l.fmt ∧ '@' ∉ l.modelName) := by
  constructor
  · rw [stringRight_iff hredis fun k' hk' hfmt heq => CacheEngineKey.eq_of_toString_eq hk' hk hfmt heq]
    exact CacheEngineKey.fromString_toString_iff hk
  · rw [stringRight_iff hredis fun l' hl' hfmt heq => LayerCacheEngineKey.eq_of_toString_eq hl' hl hfmt heq]
    exact LayerCacheEngineKey.fromString_toString_iff hl

/-- Redis as a dictionary.  The command to delete keys needs one at least. -/
instance : Redis (PyDict Str Str) where
  get := PyDict.get?
  set := PyDict.set
  delete := fun db keys => if keys = [] then .error (.runtimeError "") else .ok (keys.foldl PyDict.erase db)

/-- The dictionary without some keys. -/
theorem get?_foldl_erase (keys : List Str) (db : PyDict Str Str) (key' : Str) :
    (keys.foldl PyDict.erase db).get? key' = if key' ∈ keys then none else db.get? key' := by
  induction keys generalizing db with
  | nil => rfl
  | cons key keys ih =>
      rw [List.foldl_cons, ih, PyDict.get?_erase]
      by_cases hkey : key' = key <;> by_cases hkeys : key' ∈ keys <;> simp [hkey, hkeys]

/-- A dictionary does what is documented of Redis. -/
theorem redisDocumented_pyDict : RedisDocumented (PyDict Str Str) where
  get_set db key value key' := PyDict.get?_set db key value key'
  get_delete db db' keys key' h := by
    dsimp only [Redis.delete] at h
    split at h
    · cases h
    · cases h
      exact get?_foldl_erase keys db key'
  delete_ok db key := ⟨[key].foldl PyDict.erase db, rfl⟩

/-- A key for a model that is at a path with an `@`. -/
def pinnedModelKey : CacheEngineKey := ⟨['v', 'l', 'l', 'm'], ['m', '@', '1'], 1, 0, ['0', 'a']⟩

theorem keyStrings_right_iff_pinned :
    (StringRight (PyDict Str Str) pinnedModelKey ↔ '@' ∉ pinnedModelKey.fmt ∧ '@' ∉ pinnedModelKey.modelName) ∧
      (StringRight (PyDict Str Str) (⟨pinnedModelKey, 3⟩ : LayerCacheEngineKey) ↔
        '@' ∉ pinnedModelKey.fmt ∧ '@' ∉ pinnedModelKey.modelName) :=
  keyStrings_right_iff redisDocumented_pyDict pinnedModelKey ⟨pinnedModelKey, 3⟩ (by decide) (by decide)

/-- The key is not read back: its string is refused. -/
theorem not_stringRight_pinned :
    IsHex pinnedModelKey.chunkHash ∧ ¬StringRight (PyDict Str Str) pinnedModelKey ∧
      CacheEngineKey.fromString pinnedModelKey.toString = .error (invalidKeyString pinnedModelKey.toString) := by
  have hrefused : CacheEngineKey.fromString pinnedModelKey.toString
      = .error (invalidKeyString pinnedModelKey.toString) := rfl
  refine ⟨by decide, fun h => ?_, hrefused⟩
  have hread : CacheEngineKey.fromString pinnedModelKey.toString = .ok pinnedModelKey := h.fromString_toString
  rw [hrefused] at hread
  cases hread

end InfiniKV
