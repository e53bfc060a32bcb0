import Mathlib.Algebra.Group.Nat.Defs
import Mathlib.Algebra.GroupWithZero.Nat
import Mathlib.Data.List.Forall2
import Mathlib.Data.Nat.Basic
import Mathlib.Tactic.Common

/-!
# Bytes and cursors

Little-endian words and readers that work on a byte string at a cursor.  A reader
reads a value off its bytes when it returns the value wherever these bytes stand
and leaves the cursor behind them; what two readers read off their bytes, their
composition reads off the concatenation.
-/

namespace Bytes

/-! ## Little-endian words -/

/-- The `w` lowest bytes of a number, the lowest one first. -/
def toLE : ℕ → ℕ → List UInt8
  | 0, _ => []
  | w + 1, n => UInt8.ofNat n :: toLE w (n / 256)

/-- The number with the given bytes, the lowest one first. -/
def ofLE : List UInt8 → ℕ
  | [] => 0
  | b :: bs => b.toNat + 256 * ofLE bs

@[simp] theorem length_toLE (w n : ℕ) : (toLE w n).length = w := by
  induction w generalizing n with
  | zero => rfl
  | succ w ih => simp [toLE, ih]

theorem ofLE_toLE (w n : ℕ) : ofLE (toLE w n) = n % 256 ^ w := by
  induction w generalizing n with
  | zero => simp [toLE, ofLE, Nat.mod_one]
  | succ w ih =>
      have hsplit : n % 256 ^ (w + 1) = n % 256 + 256 * (n / 256 % 256 ^ w) := by
        rw [Nat.pow_succ', Nat.mod_mul]
      simp [toLE, ofLE, ih, hsplit]

theorem ofLE_toLE_of_lt {w n : ℕ} (h : n < 256 ^ w) : ofLE (toLE w n) = n := by
  rw [ofLE_toLE, Nat.mod_eq_of_lt h]

/-! ## Windows -/

/-- At most `len` bytes from `start` on. -/
def window (data : List UInt8) (start len : ℕ) : List UInt8 := (data.drop start).take len

/-- A window over a part of a concatenation is that part. -/
@[simp] theorem window_append (before bs after : List UInt8) :
    window (before ++ (bs ++ after)) before.length bs.length = bs := by
  simp [window]

/-- The items of `w` bytes each take their number times `w`. -/
theorem length_items {α : Type*} {encode : α → List UInt8} {w : ℕ}
    (hencode : ∀ a, (encode a).length = w) (items : List α) :
    (items.flatMap encode).length = items.length * w := by
  induction items with
  | nil => simp
  | cons a items ih =>
      rw [List.flatMap_cons, List.length_append, hencode, ih, List.length_cons, Nat.succ_mul,
        Nat.add_comm]

/-- A window over one of them. -/
theorem window_item {α : Type*} {encode : α → List UInt8} {w : ℕ}
    (hencode : ∀ a, (encode a).length = w) {items : List α} {index : ℕ}
    (hindex : index < items.length) (before after : List UInt8) :
    window (before ++ (items.flatMap encode ++ after)) (before.length + index * w) w =
      encode items[index] := by
  have hsplit : items = items.take index ++ items[index] :: items.drop (index + 1) := by
    rw [← List.drop_eq_getElem_cons hindex, List.take_append_drop]
  have hbytes : items.flatMap encode = (items.take index).flatMap encode ++
      (encode items[index] ++ (items.drop (index + 1)).flatMap encode) := by
    conv_lhs => rw [hsplit]
    rw [List.flatMap_append, List.flatMap_cons]
  have hfront : (before ++ (items.take index).flatMap encode).length =
      before.length + index * w := by
    rw [List.length_append, length_items hencode, List.length_take,
      Nat.min_eq_left (Nat.le_of_lt hindex)]
  have hwindow := window_append (before ++ (items.take index).flatMap encode)
    (encode items[index]) ((items.drop (index + 1)).flatMap encode ++ after)
  rw [hfront, hencode] at hwindow
  rw [hbytes]
  simpa only [List.append_assoc] using hwindow

/-! ## Readers -/

variable {ε α β : Type}

/-- A reader takes the data and a cursor and returns a value and the next cursor. -/
def Reader (ε α : Type) := List UInt8 → ℕ → Except ε (α × ℕ)

namespace Reader

protected def pure (a : α) : Reader ε α := fun _ cursor ↦ .ok (a, cursor)

protected def bind (r : Reader ε α) (f : α → Reader ε β) : Reader ε β := fun data cursor ↦ do
  let (a, next) ← r data cursor
  f a data next

/-- The same reader `n` times. -/
def many (r : Reader ε α) : ℕ → Reader ε (List α)
  | 0 => .pure []
  | n + 1 => r.bind fun a ↦ (many r n).bind fun as ↦ .pure (a :: as)

/-- A word of `w` bytes; outside the data the error `e`. -/
def word (e : ε) (w : ℕ) : Reader ε ℕ := fun data cursor ↦
  if cursor + w ≤ data.length then .ok (ofLE (window data cursor w), cursor + w) else .error e

/-- The next `w` bytes, fewer at the end of the data. -/
def bytes (w : ℕ) : Reader ε (List UInt8) := fun data cursor ↦
  .ok (window data cursor w, cursor + w)

theorem length_window {data : List UInt8} {cursor w : ℕ} (h : cursor + w ≤ data.length) :
    (window data cursor w).length = w := by
  rw [window, List.length_take, List.length_drop]
  omega

/-- Exactly `w` bytes; outside the data the error `e`. -/
def array (e : ε) (w : ℕ) : Reader ε (Vector UInt8 w) := fun data cursor ↦
  if h : cursor + w ≤ data.length then
    .ok (⟨(window data cursor w).toArray, length_window h⟩, cursor + w)
  else .error e

/-- The reader that refuses everything. -/
def fail (e : ε) : Reader ε α := fun _ _ ↦ .error e

variable {r : Reader ε α} {f : α → Reader ε β} {data bs cs : List UInt8} {cursor next : ℕ}
  {a a' : α} {b : β}

theorem pure_eq_ok :
    (Reader.pure a : Reader ε α) data cursor = .ok (a', next) ↔ a = a' ∧ cursor = next := by
  simp [Reader.pure]

theorem bind_eq_ok : r.bind f data cursor = .ok (b, next) ↔
    ∃ a mid, r data cursor = .ok (a, mid) ∧ f a data mid = .ok (b, next) := by
  constructor
  · intro h
    cases hr : r data cursor with
    | error e =>
        rw [Reader.bind, hr] at h
        exact nomatch h
    | ok first =>
        rw [Reader.bind, hr] at h
        exact ⟨first.1, first.2, rfl, h⟩
  · rintro ⟨a, mid, hr, hf⟩
    rw [Reader.bind, hr]
    exact hf

/-- `r` reads `a` off the bytes `bs`, wherever they stand. -/
def ReadsOff (r : Reader ε α) (bs : List UInt8) (a : α) : Prop :=
  ∀ before after, r (before ++ (bs ++ after)) before.length = .ok (a, before.length + bs.length)

theorem readsOff_pure (a : α) : ReadsOff (.pure a : Reader ε α) [] a := fun _ _ ↦ rfl

/-- The rule of composition. -/
theorem ReadsOff.bind (h : ReadsOff r bs a) (h' : ReadsOff (f a) cs b) :
    ReadsOff (r.bind f) (bs ++ cs) b := by
  intro before after
  have hfirst := h before (cs ++ after)
  have hsecond := h' (before ++ bs) after
  simp only [List.append_assoc, List.length_append] at hfirst hsecond ⊢
  simp only [Reader.bind, hfirst]
  change f a _ _ = _
  rw [hsecond, Nat.add_assoc]

theorem ReadsOff.map {g : α → β} (h : ReadsOff r bs a) :
    ReadsOff (r.bind fun a ↦ .pure (g a)) bs (g a) := by
  have hmap := h.bind (f := fun a ↦ .pure (g a)) (readsOff_pure (g a))
  rwa [List.append_nil] at hmap

/-- What is read off each item is read off the list of them. -/
theorem ReadsOff.items {items : List (List UInt8)} {as : List α}
    (h : List.Forall₂ (ReadsOff r) items as) : ReadsOff (r.many as.length) items.flatten as := by
  induction h with
  | nil => exact readsOff_pure []
  | @cons bs a items as hfirst _ ih =>
      have hrest : ReadsOff ((r.many as.length).bind fun as ↦ .pure (a :: as)) items.flatten
          (a :: as) := ih.map
      exact hfirst.bind hrest

theorem ReadsOff.many {encode : β → List UInt8} {g : β → α} {items : List β}
    (h : ∀ b, ReadsOff r (encode b) (g b)) :
    ReadsOff (r.many items.length) (items.flatMap encode) (items.map g) := by
  have hitems : List.Forall₂ (ReadsOff r) (items.map encode) (items.map g) := by
    rw [List.forall₂_map_left_iff, List.forall₂_map_right_iff, List.forall₂_same]
    exact fun b _ ↦ h b
  have hmany := ReadsOff.items hitems
  rwa [List.length_map, ← List.flatMap_def] at hmany

theorem readsOff_word (e : ε) {w n : ℕ} (h : n < 256 ^ w) : ReadsOff (word e w) (toLE w n) n := by
  intro before after
  have hfits : before.length + w ≤ (before ++ (toLE w n ++ after)).length := by
    simp
  have hwindow := window_append before (toLE w n) after
  rw [length_toLE] at hwindow ⊢
  rw [word, if_pos hfits, hwindow, ofLE_toLE_of_lt h]

theorem readsOff_bytes (bs : List UInt8) : ReadsOff (bytes bs.length : Reader ε _) bs bs := by
  intro before after
  rw [bytes, window_append]

theorem readsOff_array (e : ε) {w : ℕ} (bs : Vector UInt8 w) :
    ReadsOff (array e w) bs.toList bs := by
  intro before after
  have hlength : bs.toList.length = w := Vector.length_toList
  have hfits : before.length + w ≤ (before ++ (bs.toList ++ after)).length := by
    rw [List.length_append, List.length_append, hlength]
    omega
  have hwindow := window_append before bs.toList after
  rw [hlength] at hwindow ⊢
  rw [array, dif_pos hfits]
  simp only [hwindow]
  rfl

/-! ### What a reader takes -/

/-- The cursor moves by the size of the value. -/
def Takes (r : Reader ε α) (size : α → ℕ) : Prop :=
  ∀ ⦃data cursor a next⦄, r data cursor = .ok (a, next) → next = cursor + size a

theorem takes_word (e : ε) (w : ℕ) : Takes (word e w) fun _ ↦ w := by
  intro data cursor a next h
  rw [word] at h
  split at h
  · cases h
    rfl
  · cases h

theorem takes_array (e : ε) (w : ℕ) : Takes (array e w) fun _ ↦ w := by
  intro data cursor a next h
  rw [array] at h
  split at h
  · cases h
    rfl
  · cases h

theorem Takes.map {size : α → ℕ} {sized : β → ℕ} {g : α → β} (h : Takes r size)
    (hsize : ∀ a, size a = sized (g a)) : Takes (r.bind fun a ↦ .pure (g a)) sized := by
  intro data cursor b next hread
  obtain ⟨a, mid, hfirst, hpure⟩ := bind_eq_ok.1 hread
  obtain ⟨rfl, rfl⟩ := pure_eq_ok.1 hpure
  have hmid := h hfirst
  rw [hmid, hsize]

theorem Takes.many {size : α → ℕ} (h : Takes r size) (n : ℕ) :
    Takes (r.many n) fun as ↦ (as.map size).sum := by
  induction n with
  | zero =>
      intro data cursor as next hread
      obtain ⟨rfl, rfl⟩ := pure_eq_ok.1 hread
      rfl
  | succ n ih =>
      intro data cursor as next hread
      obtain ⟨a, mid, hfirst, hread⟩ := bind_eq_ok.1 hread
      obtain ⟨others, last, hothers, hpure⟩ := bind_eq_ok.1 hread
      obtain ⟨rfl, rfl⟩ := pure_eq_ok.1 hpure
      have hmid := h hfirst
      have hlast : last = mid + (others.map size).sum := ih hothers
      simp only [List.map_cons, List.sum_cons]
      omega

/-- A value read off the whole data. -/
theorem ReadsOff.whole (h : ReadsOff r bs a) (after : List UInt8) :
    r (bs ++ after) 0 = .ok (a, bs.length) := by
  have hstart := h [] after
  simpa using hstart

end Reader

end Bytes
