/-
**Snapshots.**

A backend writes its index and its usage to a file, and reads them back.  The index is a plain dictionary, and what is
read back has to be an ordered one; and the index and the usage are assigned before they are checked, so that a
snapshot that is refused has been taken over nevertheless.

The file may hold any object.  What objects of other classes do, and which times the C library can turn into a date,
is not known.

Main definitions:

* `InfiniKV.PyObject`, `InfiniKV.PyWorld` — objects, and what is not known of them;
* `InfiniKV.SnapshotFile`, `InfiniKV.SnapshotBackend` — what is at the path of the snapshot, and the part of a backend
  that a snapshot is made of;
* `InfiniKV.SnapshotBackend.persist`, `InfiniKV.SnapshotBackend.restoreFromSnapshot` — writing and reading a snapshot;
* `InfiniKV.SnapshotBackend.RestoredBy`, `InfiniKV.SnapshotBackend.LeftOnFailure` — what reading is to do after writing,
  and when it fails.

Main results:

* `InfiniKV.SnapshotBackend.restoreFields_eq` — when fields are accepted, and that they are assigned in any case;
* `InfiniKV.SnapshotBackend.restoredBy_iff` — **a snapshot is accepted if its index is ordered**;
* `InfiniKV.SnapshotBackend.leftOnFailure_iff` — **what is refused leaves no trace only if nothing was assigned**;
* `InfiniKV.SnapshotBackend.snapshot_right_iff` — **when snapshots do what they are for**.
-/

import InfiniKV.Backend
import Mathlib.Data.Rat.Floor

set_option relaxedAutoImplicit false
set_option autoImplicit false

namespace InfiniKV

/-! ### Objects -/

/-- A number of type `float`. -/
inductive PyFloat where
  | finite (q : ℚ)
  | inf
  | negInf
  | nan

/-- An object.  A dictionary may be an `OrderedDict`; the last case stands for the objects of other classes. -/
inductive PyObject where
  | none
  | bool (b : Bool)
  | int (n : ℤ)
  | float (x : PyFloat)
  | str (s : String)
  | list (xs : List PyObject)
  | dict (ordered : Bool) (entries : List (PyObject × PyObject))
  | key (key : CacheEngineKey)
  | gpuFile (gpuFile : GPUFileMetadata)
  | foreign (n : ℕ)

/-- What is not known: whether the C library can turn a number of seconds into a date, and what objects of other
classes do when they are compared with an integer, formatted, measured, or taken for a time. -/
structure PyWorld where
  localtime : ℤ → Except PyError Unit
  foreignLe : ℕ → ℤ → Except PyError Bool
  foreignFormat : ℕ → Except PyError Unit
  foreignLen : ℕ → Except PyError ℕ
  foreignCtime : ℕ → Except PyError Unit

namespace PyObject

/-- The object is an `OrderedDict`. -/
def isOrderedDict : PyObject → Bool
  | .dict ordered _ => ordered
  | _ => false

/-- The object is the given text. -/
def isStr (s : String) : PyObject → Bool
  | .str s' => s == s'
  | _ => false

end PyObject

namespace PyWorld

variable (w : PyWorld)

/-- The truth of `x <= m`. -/
def leInt : PyObject → ℤ → Except PyError Bool
  | .bool b, m => .ok (decide ((if b then 1 else 0) ≤ m))
  | .int n, m => .ok (decide (n ≤ m))
  | .float (.finite q), m => .ok (decide (q ≤ m))
  | .float .negInf, _ => .ok true
  | .float _, _ => .ok false
  | .foreign n, m => w.foreignLe n m
  | _, _ => .error .typeError

/-- `format(x)`. -/
def format : PyObject → Except PyError Unit
  | .foreign n => w.foreignFormat n
  | _ => .ok ()

/-- `len(x)`. -/
def len : PyObject → Except PyError ℕ
  | .str s => .ok s.length
  | .list xs => .ok xs.length
  | .dict _ entries => .ok entries.length
  | .foreign n => w.foreignLen n
  | _ => .error .typeError

/-- `time.ctime(x)`. -/
def ctime : PyObject → Except PyError Unit
  | .none => .ok ()
  | .bool b => w.localtime (if b then 1 else 0)
  | .int n => w.localtime n
  | .float (.finite q) => w.localtime ⌊q⌋
  | .float .nan => .error (.valueError "Invalid value NaN (not a number)")
  | .float _ => .error .overflowError
  | .foreign n => w.foreignCtime n
  | _ => .error .typeError

end PyWorld

/-! ### Snapshots -/

/-- What is at the path of the snapshot: no file, one that no object can be read from, or one with an object. -/
inductive SnapshotFile where
  | missing
  | unreadable
  | object (data : PyObject)

/-- The part of a backend that a snapshot is made of, and what it is checked against and reported to. -/
structure SnapshotBackend where
  dict : PyObject
  usage : PyObject
  instanceId : PyObject
  maxCapacity : ℤ
  localStorageUsage : PyObject

/-- The value of a text in a dictionary. -/
def fieldOf (entries : List (PyObject × PyObject)) (name : String) : Option PyObject :=
  (entries.find? fun entry => entry.1.isStr name).map Prod.snd

/-- The fields that a snapshot has to have. -/
def requiredKeys : List String := ["dict", "usage", "instance_id", "timestamp"]

namespace SnapshotBackend

variable (w : PyWorld) (b : SnapshotBackend)

/-- **`persist`**, at the time `now`.  `io` is the exception that opening the temporary file, writing to it or renaming
it raises, if there is one. -/
def persist (now : PyObject) (io : Option PyError) (file : SnapshotFile) : Bool × SnapshotFile :=
  match io with
  | some _ => (false, file)
  | none =>
      let snapshotData : PyObject := .dict false [(.str "dict", b.dict), (.str "usage", b.usage),
        (.str "instance_id", b.instanceId), (.str "timestamp", now), (.str "version", .str "1.0")]
      match w.len b.dict, w.format b.usage with
      | .ok _, .ok _ => (true, .object snapshotData)
      | _, _ => (false, .object snapshotData)

/-- The fields are assigned, and then checked.  Behind the checks they are reported, in a message that holds the number
of entries, the usage and the time. -/
def restoreFields (dict usage timestamp : PyObject) : Bool × SnapshotBackend :=
  let b := { b with dict := dict, usage := usage }
  match w.leInt usage b.maxCapacity with
  | .error _ => (false, b)
  | .ok false => (false, b)
  | .ok true =>
      if dict.isOrderedDict then
        let b := { b with localStorageUsage := usage }
        match w.len dict, w.format usage, w.ctime timestamp with
        | .ok _, .ok _, .ok _ => (true, b)
        | _, _, _ => (false, b)
      else (false, b)

/-- **`_restore_from_snapshot`**. -/
def restoreFromSnapshot (file : SnapshotFile) : Bool × SnapshotBackend :=
  match file with
  | .object (.dict _ entries) =>
      if requiredKeys.all fun key => (fieldOf entries key).isSome then
        match fieldOf entries "dict", fieldOf entries "usage", fieldOf entries "timestamp" with
        | some dict, some usage, some timestamp => b.restoreFields w dict usage timestamp
        | _, _, _ => (false, b)
      else (false, b)
  | _ => (false, b)

/-! ### What snapshots are for -/

/-- A file that the backend `b` has been written to restores `b'` to its index and its usage. -/
def RestoredBy (file : SnapshotFile) (b' : SnapshotBackend) : Prop :=
  ∃ b'', b'.restoreFromSnapshot w file = (true, b'') ∧ b''.dict = b.dict ∧ b''.usage = b.usage

/-- If a file cannot be restored from, the index and the usage are as they were. -/
def LeftOnFailure (file : SnapshotFile) : Prop :=
  ∀ b', b.restoreFromSnapshot w file = (false, b') → b'.dict = b.dict ∧ b'.usage = b.usage

/-- The index, the usage and the time in a file, if it holds a dictionary with the fields that are required. -/
def fieldsOf : SnapshotFile → Option (PyObject × PyObject × PyObject)
  | .object (.dict _ entries) =>
      if requiredKeys.all fun key => (fieldOf entries key).isSome then
        match fieldOf entries "dict", fieldOf entries "usage", fieldOf entries "timestamp" with
        | some dict, some usage, some timestamp => some (dict, usage, timestamp)
        | _, _, _ => none
      else none
  | _ => none

/-- Fields that are accepted: the usage is within the capacity and the index an ordered dictionary, and the message can
be made. -/
structure Accepts (dict usage timestamp : PyObject) : Prop where
  le : w.leInt usage b.maxCapacity = .ok true
  ordered : dict.isOrderedDict = true
  format : w.format usage = .ok ()
  ctime : w.ctime timestamp = .ok ()

variable {w} {b}

/-! ### Reading -/

/-- Reading is reading the fields, if there are any. -/
theorem restoreFromSnapshot_eq (file : SnapshotFile) :
    b.restoreFromSnapshot w file = match fieldsOf file with
      | some (dict, usage, timestamp) => b.restoreFields w dict usage timestamp
      | none => (false, b) := by
  cases file with
  | missing => rfl
  | unreadable => rfl
  | object data =>
      cases data with
      | dict ordered entries =>
          rw [restoreFromSnapshot, fieldsOf]
          by_cases hrequired : requiredKeys.all fun key => (fieldOf entries key).isSome
          · rw [if_pos hrequired, if_pos hrequired]
            cases fieldOf entries "dict" with
            | none => rfl
            | some dict =>
                cases fieldOf entries "usage" with
                | none => rfl
                | some usage =>
                    cases fieldOf entries "timestamp" with
                    | none => rfl
                    | some timestamp => rfl
          · rw [if_neg hrequired, if_neg hrequired]
      | _ => rfl

theorem len_of_isOrderedDict {dict : PyObject} (h : dict.isOrderedDict = true) : ∃ n, w.len dict = .ok n := by
  cases dict with
  | dict ordered entries => exact ⟨entries.length, rfl⟩
  | _ => cases h

/-- **The fields are assigned, whether they are accepted or not.** -/
theorem restoreFields_assigns (dict usage timestamp : PyObject) :
    (b.restoreFields w dict usage timestamp).2.dict = dict ∧ (b.restoreFields w dict usage timestamp).2.usage = usage := by
  rw [restoreFields]
  cases w.leInt usage b.maxCapacity with
  | error err => exact ⟨rfl, rfl⟩
  | ok fits =>
      cases fits with
      | false => exact ⟨rfl, rfl⟩
      | true =>
          dsimp only
          by_cases hordered : dict.isOrderedDict = true
          · rw [if_pos hordered]
            cases w.len dict with
            | error err => exact ⟨rfl, rfl⟩
            | ok n =>
                cases w.format usage with
                | error err => exact ⟨rfl, rfl⟩
                | ok _ =>
                    cases w.ctime timestamp with
                    | error err => exact ⟨rfl, rfl⟩
                    | ok _ => exact ⟨rfl, rfl⟩
          · rw [if_neg hordered]
            exact ⟨rfl, rfl⟩

/-- Reading fields succeeds exactly if they are accepted. -/
theorem restoreFields_eq_true_iff (dict usage timestamp : PyObject) :
    (b.restoreFields w dict usage timestamp).1 = true ↔ b.Accepts w dict usage timestamp := by
  rw [restoreFields]
  constructor
  · intro h
    cases hle : w.leInt usage b.maxCapacity with
    | error err =>
        simp only [hle] at h
        cases h
    | ok fits =>
        cases fits with
        | false =>
            simp only [hle] at h
            cases h
        | true =>
            by_cases hordered : dict.isOrderedDict = true
            · obtain ⟨n, hlen⟩ := len_of_isOrderedDict (w := w) hordered
              cases hformat : w.format usage with
              | error err =>
                  simp only [hle, if_pos hordered, hlen, hformat] at h
                  cases h
              | ok _ =>
                  cases hctime : w.ctime timestamp with
                  | error err =>
                      simp only [hle, if_pos hordered, hlen, hformat, hctime] at h
                      cases h
                  | ok _ => exact ⟨hle, hordered, hformat, hctime⟩
            · simp only [hle, if_neg hordered] at h
              cases h
  · intro h
    obtain ⟨n, hlen⟩ := len_of_isOrderedDict (w := w) h.ordered
    simp only [h.le, if_pos h.ordered, hlen, h.format, h.ctime]

/-! ### Writing, and reading what was written -/

/-- What a successful call has written. -/
theorem persist_eq_true {now : PyObject} {io : Option PyError} {old file : SnapshotFile}
    (h : b.persist w now io old = (true, file)) :
    fieldsOf file = some (b.dict, b.usage, now) ∧ w.format b.usage = .ok () := by
  cases io with
  | some err => cases h
  | none =>
      rw [persist] at h
      cases hlen : w.len b.dict with
      | error err =>
          rw [hlen] at h
          cases h
      | ok n =>
          cases hformat : w.format b.usage with
          | error err =>
              rw [hlen, hformat] at h
              cases h
          | ok _ =>
              rw [hlen, hformat] at h
              cases h
              exact ⟨rfl, rfl⟩

/-- **A snapshot restores a backend exactly if its index is an ordered dictionary** and its usage within the capacity of
the backend. -/
theorem restoredBy_iff {now : PyObject} {io : Option PyError} {old file : SnapshotFile} {b' : SnapshotBackend}
    (hnow : w.ctime now = .ok ()) (hpersist : b.persist w now io old = (true, file)) :
    b.RestoredBy w file b' ↔ b.dict.isOrderedDict = true ∧ w.leInt b.usage b'.maxCapacity = .ok true := by
  obtain ⟨hfields, hformat⟩ := persist_eq_true hpersist
  have hrestore : b'.restoreFromSnapshot w file = b'.restoreFields w b.dict b.usage now := by
    rw [restoreFromSnapshot_eq, hfields]
  have haccepts := restoreFields_eq_true_iff (w := w) (b := b') b.dict b.usage now
  constructor
  · rintro ⟨b'', h, -⟩
    rw [← hrestore, h] at haccepts
    have hright := haccepts.1 rfl
    exact ⟨hright.ordered, hright.le⟩
  · rintro ⟨hordered, hle⟩
    refine ⟨(b'.restoreFields w b.dict b.usage now).2, ?_, restoreFields_assigns b.dict b.usage now⟩
    rw [hrestore, ← haccepts.2 ⟨hle, hordered, hformat, hnow⟩]

/-- **What is refused leaves no trace only if nothing was assigned**: the file has no fields, or they are accepted, or
they are what the backend has. -/
theorem leftOnFailure_iff (file : SnapshotFile) :
    b.LeftOnFailure w file ↔ ∀ dict usage timestamp, fieldsOf file = some (dict, usage, timestamp) →
      b.Accepts w dict usage timestamp ∨ dict = b.dict ∧ usage = b.usage := by
  rw [LeftOnFailure, restoreFromSnapshot_eq]
  constructor
  · intro h dict usage timestamp hfields
    rw [hfields] at h
    obtain ⟨hdict, husage⟩ := restoreFields_assigns (w := w) (b := b) dict usage timestamp
    by_cases haccepts : b.Accepts w dict usage timestamp
    · exact Or.inl haccepts
    · rw [← restoreFields_eq_true_iff, Bool.not_eq_true] at haccepts
      have hleft := h _ (Prod.ext haccepts rfl)
      rw [hdict, husage] at hleft
      exact Or.inr hleft
  · intro h b' hrestore
    cases hfields : fieldsOf file with
    | none =>
        rw [hfields] at hrestore
        cases hrestore
        exact ⟨rfl, rfl⟩
    | some fields =>
        obtain ⟨dict, usage, timestamp⟩ := fields
        rw [hfields] at hrestore
        dsimp only at hrestore
        obtain ⟨hdict, husage⟩ := restoreFields_assigns (w := w) (b := b) dict usage timestamp
        rcases h dict usage timestamp hfields with haccepts | ⟨rfl, rfl⟩
        · rw [← restoreFields_eq_true_iff, hrestore] at haccepts
          cases haccepts
        · rw [hrestore] at hdict husage
          exact ⟨hdict, husage⟩

/-- **When snapshots do what they are for.** -/
theorem snapshot_right_iff (w : PyWorld) (b b' : SnapshotBackend) (now : PyObject) (io : Option PyError)
    (old file : SnapshotFile) (hnow : w.ctime now = .ok ()) (hpersist : b.persist w now io old = (true, file)) :
    (b.RestoredBy w file b' ↔ b.dict.isOrderedDict = true ∧ w.leInt b.usage b'.maxCapacity = .ok true) ∧
      ∀ content : SnapshotFile, b'.LeftOnFailure w content ↔
        ∀ dict usage timestamp, fieldsOf content = some (dict, usage, timestamp) →
          b'.Accepts w dict usage timestamp ∨ dict = b'.dict ∧ usage = b'.usage :=
  ⟨restoredBy_iff hnow hpersist, leftOnFailure_iff⟩

/-- A world in which every number of seconds is a date. -/
def plainWorld : PyWorld :=
  ⟨fun _ => .ok (), fun _ _ => .error .typeError, fun _ => .ok (), fun _ => .error .typeError, fun _ => .error .typeError⟩

/-- A backend as it is made, but for the class of its index. -/
def emptyBackend (ordered : Bool) : SnapshotBackend := ⟨.dict ordered [], .int 0, .str "a", 2 ^ 30, .int 0⟩

/-- The theorem at an ordered index. -/
theorem snapshot_right_iff_ordered :
    ((emptyBackend true).persist plainWorld (.int 1) none .missing).1 = true ∧
      (emptyBackend true).RestoredBy plainWorld
        ((emptyBackend true).persist plainWorld (.int 1) none .missing).2 (emptyBackend true) :=
  ⟨rfl, (snapshot_right_iff plainWorld (emptyBackend true) (emptyBackend true) (.int 1) none .missing _ rfl rfl).1.2
    ⟨rfl, rfl⟩⟩

/-- **The index of a backend is a plain dictionary.**  The snapshot that a new backend has written does not restore it;
and one of a backend with a larger usage is refused, and leaves its usage behind. -/
theorem not_snapshot_right_plain :
    ((emptyBackend false).persist plainWorld (.int 1) none .missing).1 = true ∧
      ¬(emptyBackend false).RestoredBy plainWorld
        ((emptyBackend false).persist plainWorld (.int 1) none .missing).2 (emptyBackend false) ∧
      ¬(emptyBackend false).LeftOnFailure plainWorld
        (.object (.dict false [(.str "dict", .dict false []), (.str "usage", .int 4096), (.str "instance_id", .str "a"),
          (.str "timestamp", .int 1)])) := by
  refine ⟨rfl, ?_, ?_⟩
  · rintro ⟨b'', h, -⟩
    cases h
  · intro h
    have husage := (h { emptyBackend false with usage := .int 4096 } rfl).2
    cases husage

end SnapshotBackend

end InfiniKV
