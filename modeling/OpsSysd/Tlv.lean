import OpsSysd.CString
import Mathlib.Data.List.Range

/-!
Type-length-value sequences in a byte memory: one code byte, one length byte and
as many value bytes. A walk follows the lengths from a start to a stop
position; walking over an encoded sequence returns it. The last part is about
folds whose steps each touch one field of a record.
-/

namespace OpsSysd.Tlv

/-- The bytes at and after some address. -/
abbrev Memory := ℕ → UInt8

def slice (mem : Memory) (off n : ℕ) : List UInt8 := (List.range n).map (fun i => mem (off + i))

def Holds (mem : Memory) (off : ℕ) (bytes : List UInt8) : Prop :=
  slice mem off bytes.length = bytes

instance (mem : Memory) (off : ℕ) (bytes : List UInt8) : Decidable (Holds mem off bytes) :=
  inferInstanceAs (Decidable (slice mem off bytes.length = bytes))

@[simp] theorem slice_length (mem : Memory) (off n : ℕ) : (slice mem off n).length = n := by
  simp [slice]

@[simp] theorem slice_zero (mem : Memory) (off : ℕ) : slice mem off 0 = [] := rfl

theorem slice_succ (mem : Memory) (off n : ℕ) :
    slice mem off (n + 1) = mem off :: slice mem (off + 1) n := by
  simp only [slice, List.range_succ_eq_map, List.map_cons, List.map_map, Nat.add_zero]
  congr 1
  apply List.map_congr_left
  intro i _
  simp only [Function.comp_apply, Nat.succ_eq_add_one]
  congr 1
  omega

theorem slice_add (mem : Memory) (off m n : ℕ) :
    slice mem off (m + n) = slice mem off m ++ slice mem (off + m) n := by
  induction m generalizing off with
  | zero => simp
  | succ m ih =>
    rw [show m + 1 + n = (m + n) + 1 by omega, slice_succ, slice_succ, ih, List.cons_append,
      show off + 1 + m = off + (m + 1) by omega]

theorem holds_append (mem : Memory) (off : ℕ) (a b : List UInt8) :
    Holds mem off (a ++ b) ↔ Holds mem off a ∧ Holds mem (off + a.length) b := by
  unfold Holds
  rw [List.length_append, slice_add]
  constructor
  · intro h
    exact List.append_inj h (slice_length mem off a.length)
  · rintro ⟨ha, hb⟩
    rw [ha, hb]

theorem holds_cons (mem : Memory) (off : ℕ) (x : UInt8) (a : List UInt8) :
    Holds mem off (x :: a) ↔ mem off = x ∧ Holds mem (off + 1) a := by
  unfold Holds
  rw [List.length_cons, slice_succ, List.cons.injEq]

/-- A memory that holds the bytes and zeros after them. -/
def ofList (bytes : List UInt8) : Memory := fun i => bytes.getD i 0

theorem holds_ofList (bytes : List UInt8) : Holds (ofList bytes) 0 bytes := by
  unfold Holds slice ofList
  apply List.ext_getElem
  · simp
  · intro i h₁ h₂
    simp [List.getElem?_eq_getElem h₂]

/-- One element; the length byte bounds its value. -/
@[ext] structure Item where
  code : UInt8
  value : List UInt8
  short : value.length < 256

instance : DecidableEq Item := fun t u =>
  decidable_of_iff (t.code = u.code ∧ t.value = u.value)
    ⟨fun h => Item.ext h.1 h.2, fun h => by simp [h]⟩

def Item.encode (t : Item) : List UInt8 := t.code :: UInt8.ofNat t.value.length :: t.value

theorem Item.encode_length (t : Item) : t.encode.length = t.value.length + 2 := by
  simp [Item.encode]

/-- The element whose code byte lies at the position. -/
def itemAt (mem : Memory) (pos : ℕ) : Item where
  code := mem pos
  value := slice mem (pos + 2) (mem (pos + 1)).toNat
  short := by
    rw [slice_length]
    exact (mem (pos + 1)).toNat_lt

theorem itemAt_length (mem : Memory) (pos : ℕ) :
    (itemAt mem pos).value.length = (mem (pos + 1)).toNat := by
  simp [itemAt]

/-- The elements, with their positions, that start before `stop`. -/
def walk (mem : Memory) (stop pos : ℕ) : List (ℕ × Item) :=
  if pos < stop then
    (pos, itemAt mem pos) :: walk mem stop (pos + (itemAt mem pos).value.length + 2)
  else []
termination_by stop - pos

theorem itemAt_of_holds {mem : Memory} {pos : ℕ} {t : Item} (h : Holds mem pos t.encode) :
    itemAt mem pos = t := by
  simp only [Item.encode, holds_cons] at h
  obtain ⟨hcode, hlen, hvalue⟩ := h
  apply Item.ext
  · exact hcode
  · have hn : (UInt8.ofNat t.value.length).toNat = t.value.length := by
      rw [UInt8.toNat_ofNat']
      exact Nat.mod_eq_of_lt t.short
    rw [Holds] at hvalue
    simpa only [itemAt, hlen, hn] using hvalue

/-- Where the elements of an encoded sequence lie. -/
def place (pos : ℕ) : List Item → List (ℕ × Item)
  | [] => []
  | t :: rest => (pos, t) :: place (pos + t.value.length + 2) rest

theorem walk_encode {mem : Memory} {items : List Item} {pos stop : ℕ}
    (h : Holds mem pos (items.flatMap Item.encode))
    (hstop : stop = pos + (items.flatMap Item.encode).length) :
    walk mem stop pos = place pos items := by
  induction items generalizing pos with
  | nil =>
    rw [walk, if_neg (by simp at hstop; omega)]
    rfl
  | cons t rest ih =>
    rw [List.flatMap_cons, holds_append] at h
    simp only [List.flatMap_cons, List.length_append, Item.encode_length] at hstop
    rw [walk, if_pos (by omega), itemAt_of_holds h.1, place]
    congr 1
    apply ih
    · rw [t.encode_length] at h
      exact h.2
    · omega

section Fields

variable {α β σ : Type*} [DecidableEq α]

/-- A field that only the steps of one kind update depends on those steps alone. -/
theorem foldl_field {ι : Type*} (step : σ → ι → σ) (kind : ι → α) (k : α) (proj : σ → β)
    (upd : β → ι → β)
    (h : ∀ s i, proj (step s i) = if kind i = k then upd (proj s) i else proj s)
    (l : List ι) (s : σ) :
    proj (l.foldl step s) = (l.filter (fun i => kind i = k)).foldl upd (proj s) := by
  induction l generalizing s with
  | nil => rfl
  | cons i rest ih =>
    rw [List.foldl_cons, ih, h]
    by_cases hk : kind i = k <;> simp [hk]

/-- Where what is read of a field depends on the last step alone, so does the fold. -/
theorem foldl_last {ι γ : Type*} (upd : β → ι → β) (read : β → γ) (decode : ι → γ) (l : List ι)
    (h : ∀ i ∈ l, ∀ b, read (upd b i) = decode i) (b : β) :
    match l.getLast? with
    | none => l.foldl upd b = b
    | some i => read (l.foldl upd b) = decode i := by
  rcases List.eq_nil_or_concat l with rfl | ⟨init, i, rfl⟩
  · rfl
  · rw [List.concat_eq_append] at h ⊢
    simp only [List.getLast?_append, List.getLast?_singleton, Option.some_or, List.foldl_append,
      List.foldl_cons, List.foldl_nil]
    exact h i (by simp) _

end Fields

end OpsSysd.Tlv
