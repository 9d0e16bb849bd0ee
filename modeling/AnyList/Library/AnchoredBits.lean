import Mathlib.Data.Finset.Dedup
import Mathlib.Data.Finset.Empty
import Mathlib.Data.List.Pairwise
import Mathlib.Data.Nat.Basic

namespace AnyList.Library.BitArray

abbrev Bytes := List (BitVec 8)

def zeros (bits : ℕ) : Bytes := List.replicate ((bits + 7) / 8) 0#8

def setBit (bytes : Bytes) (i : ℕ) : Bytes :=
  bytes.modify (i / 8) fun byte ↦ byte ||| 1#8 <<< (i % 8)

def testBit (bytes : Bytes) (i : ℕ) : Bool :=
  bytes[i / 8]?.any fun byte ↦ byte.getLsbD (i % 8)

@[simp] theorem length_zeros (bits : ℕ) : (zeros bits).length = (bits + 7) / 8 :=
  List.length_replicate

@[simp] theorem length_setBit (bytes : Bytes) (i : ℕ) : (setBit bytes i).length = bytes.length :=
  List.length_modify ..

@[simp] theorem testBit_zeros (bits i : ℕ) : testBit (zeros bits) i = false := by
  simp only [testBit, zeros, List.getElem?_replicate]
  split_ifs <;> simp

theorem testBit_setBit {bytes : Bytes} {i : ℕ} (h : i / 8 < bytes.length) (j : ℕ) :
    testBit (setBit bytes i) j = (decide (i = j) || testBit bytes j) := by
  by_cases hbyte : i / 8 = j / 8
  · obtain ⟨byte, hget⟩ : ∃ byte, bytes[j / 8]? = some byte := ⟨_, List.getElem?_eq_getElem (hbyte ▸ h)⟩
    have hbit : (1#8 <<< (i % 8)).getLsbD (j % 8) = decide (i = j) := by
      have hi := Nat.mod_lt i (Nat.succ_pos 7)
      have hj := Nat.mod_lt j (Nat.succ_pos 7)
      rw [BitVec.getLsbD_shiftLeft, BitVec.getLsbD_one, Bool.eq_iff_iff]
      simp only [Bool.and_eq_true, Bool.not_eq_true', decide_eq_true_eq, decide_eq_false_iff_not]
      omega
    simp [testBit, setBit, hbyte, hget, hbit, Bool.or_comm]
  · have hne : i ≠ j := fun hij ↦ hbyte (congrArg (· / 8) hij)
    simp [testBit, setBit, List.getElem?_modify_ne _ _ hbyte, hne]

/-- Setting a list of bits sets exactly these. -/
theorem testBit_foldl_setBit {bytes : Bytes} {is : List ℕ} (h : ∀ i ∈ is, i / 8 < bytes.length)
    (j : ℕ) : testBit (is.foldl setBit bytes) j = (decide (j ∈ is) || testBit bytes j) := by
  induction is generalizing bytes with
  | nil => simp
  | cons i is ih =>
    rw [List.foldl_cons, ih fun i' hi' ↦ by simpa using h i' (List.mem_cons_of_mem i hi'),
      testBit_setBit (h i List.mem_cons_self)]
    by_cases hij : j = i
    · simp [hij]
    · simp [hij, Ne.symm hij]

end AnyList.Library.BitArray

namespace AnyList.Library.AnchoredBits

open AnyList.Library.BitArray

variable {ι : Type*} [DecidableEq ι]

/-- One bit for each item of a list, read from the last marked item backwards. -/
structure BitField (ι : Type*) where
  anchor : ι
  length : Int
  bits : Bytes
  deriving DecidableEq

def marked (items : Finset ι) (order : List ι) : List ℕ :=
  (List.range order.length).filter fun i ↦ order[i]?.any fun item ↦ decide (item ∈ items)

def encode (items : Finset ι) (order : List ι) : Option (BitField ι) :=
  let last := (marked items order).getLastD 0
  order[last]?.map fun anchor ↦
    ⟨anchor, last + 1, (marked items order).foldl setBit (zeros order.length)⟩

def BitField.reads (field : BitField ι) (order : List ι) (i : ℕ) : Bool :=
  let previous : Int := i + ((field.length - 1) - order.idxOf field.anchor)
  decide (0 ≤ previous ∧ previous < field.length) && testBit field.bits previous.toNat

def decode (field : BitField ι) (order : List ι) : Finset ι :=
  if field.anchor ∈ order ∧ 0 < field.length then
    (order.zipIdx.filterMap fun item ↦
      if field.reads order item.2 then some item.1 else none).toFinset
  else ∅

section marked

variable {items : Finset ι} {order : List ι} {i : ℕ}

theorem mem_marked : i ∈ marked items order ↔ ∃ item ∈ order[i]?, item ∈ items := by
  have hlt : ∀ item, order[i]? = some item → i < order.length := fun item h ↦
    (List.getElem?_eq_some_iff.mp h).1
  simp only [marked, List.mem_filter, List.mem_range, Option.any_eq_true, decide_eq_true_eq]
  exact ⟨fun ⟨_, item, h⟩ ↦ ⟨item, h⟩, fun ⟨item, h⟩ ↦ ⟨hlt item h.1, item, h⟩⟩

theorem lt_length_of_mem_marked (h : i ∈ marked items order) : i < order.length := by
  obtain ⟨item, hitem, -⟩ := mem_marked.mp h
  exact (List.getElem?_eq_some_iff.mp hitem).1

theorem le_last_of_mem_marked (h : i ∈ marked items order) :
    i ≤ (marked items order).getLastD 0 := by
  have hne := List.ne_nil_of_mem h
  have hsorted : (marked items order).Pairwise (· ≤ ·) :=
    (List.pairwise_le_range (n := order.length)).filter _
  rw [List.getLastD_eq_getLast?, List.getLast?_eq_some_getLast hne]
  exact hsorted.rel_getLast h

theorem last_lt_length (h : order ≠ []) : (marked items order).getLastD 0 < order.length := by
  obtain hnil | hne := eq_or_ne (marked items order) []
  · simpa [hnil] using List.length_pos_of_ne_nil h
  · rw [List.getLastD_eq_getLast?, List.getLast?_eq_some_getLast hne]
    exact lt_length_of_mem_marked (List.getLast_mem hne)

theorem testBit_marked : testBit ((marked items order).foldl setBit (zeros order.length)) i =
    decide (i ∈ marked items order) := by
  rw [testBit_foldl_setBit, testBit_zeros, Bool.or_false]
  intro j hj
  have hlt := lt_length_of_mem_marked hj
  rw [length_zeros]
  omega

end marked

theorem encode_eq_none {items : Finset ι} {order : List ι} :
    encode items order = none ↔ order = [] := by
  constructor
  · intro h
    by_contra hne
    rw [encode, Option.map_eq_none_iff, List.getElem?_eq_none_iff] at h
    exact absurd (last_lt_length hne) (Nat.not_lt.mpr h)
  · rintro rfl
    simp [encode]

theorem length_nonneg_of_encode {items : Finset ι} {order : List ι} {field : BitField ι}
    (h : encode items order = some field) : 0 ≤ field.length := by
  obtain ⟨anchor, -, rfl⟩ := Option.map_eq_some_iff.mp h
  dsimp only
  omega

theorem mem_of_mem_decode {field : BitField ι} {order : List ι} {item : ι}
    (h : item ∈ decode field order) : item ∈ order := by
  unfold decode at h
  split_ifs at h with hfield
  · simp only [List.mem_toFinset, List.mem_filterMap, Option.ite_none_right_eq_some,
      Option.some.injEq, Prod.exists, List.mem_zipIdx_iff_getElem?] at h
    obtain ⟨a, i, hi, -, rfl⟩ := h
    exact List.mem_of_getElem? hi
  · simp at h

/-- The marked items are read back over any list without repetitions that the old one is part of. -/
theorem decode_encode_of_grown {items : Finset ι} {before order after : List ι}
    {field : BitField ι} (h : (before ++ order ++ after).Nodup)
    (hfield : encode items order = some field) (item : ι) :
    item ∈ decode field (before ++ order ++ after) ↔ item ∈ items ∧ item ∈ order := by
  obtain ⟨anchor, hanchor, rfl⟩ := Option.map_eq_some_iff.mp hfield
  obtain ⟨hlast, hget⟩ := List.getElem?_eq_some_iff.mp hanchor
  have hmem : anchor ∈ order := hget ▸ List.getElem_mem hlast
  obtain ⟨hleft, -, -⟩ := List.nodup_append.mp h
  obtain ⟨-, horder, hdisjoint⟩ := List.nodup_append.mp hleft
  have hnot : anchor ∉ before := fun hbefore ↦ hdisjoint anchor hbefore anchor hmem rfl
  have hidx : (before ++ order ++ after).idxOf anchor =
      (marked items order).getLastD 0 + before.length := by
    rw [List.idxOf_append_of_mem (List.mem_append_right before hmem),
      List.idxOf_append_of_notMem hnot]
    rw [← hget, horder.idxOf_getElem _ hlast, Nat.add_comm]
  have hreads : ∀ i, BitField.reads ⟨anchor, ((marked items order).getLastD 0 : ℕ) + 1,
      (marked items order).foldl setBit (zeros order.length)⟩ (before ++ order ++ after) i = true ↔
        ∃ j ∈ marked items order, i = before.length + j := by
    intro i
    simp only [BitField.reads, hidx, testBit_marked, Bool.and_eq_true, decide_eq_true_eq]
    constructor
    · rintro ⟨hrange, hmarked⟩
      exact ⟨_, hmarked, by omega⟩
    · rintro ⟨j, hj, rfl⟩
      have hle := le_last_of_mem_marked hj
      have hprevious : (((before.length + j : ℕ) : Int) +
          (((marked items order).getLastD 0 : ℕ) + 1 - 1 -
            (((marked items order).getLastD 0 + before.length : ℕ) : Int))) = j := by
        omega
      rw [hprevious, Int.toNat_natCast]
      exact ⟨by omega, hj⟩
  have hfull : anchor ∈ before ++ order ++ after :=
    List.mem_append_left _ (List.mem_append_right _ hmem)
  have hgetElem : ∀ j, j < order.length → (before ++ order ++ after)[before.length + j]? = order[j]? := by
    intro j hj
    rw [List.append_assoc, List.getElem?_append_right (Nat.le_add_right _ _),
      Nat.add_sub_cancel_left, List.getElem?_append_left hj]
  rw [decode, if_pos ⟨hfull, by dsimp only; omega⟩, List.mem_toFinset, List.mem_filterMap]
  simp only [Option.ite_none_right_eq_some, Option.some.injEq, Prod.exists, hreads,
    List.mem_zipIdx_iff_getElem?]
  constructor
  · rintro ⟨a, i, hi, ⟨j, hj, rfl⟩, rfl⟩
    rw [hgetElem j (lt_length_of_mem_marked hj)] at hi
    obtain ⟨item', hitem', hin⟩ := mem_marked.mp hj
    obtain rfl : a = item' := Option.some.inj (hi.symm.trans hitem')
    exact ⟨hin, List.mem_of_getElem? hi⟩
  · rintro ⟨hin, hord⟩
    obtain ⟨j, hj⟩ := List.getElem?_of_mem hord
    have hmarked : j ∈ marked items order := mem_marked.mpr ⟨item, hj, hin⟩
    exact ⟨item, before.length + j, (hgetElem j (lt_length_of_mem_marked hmarked)).trans hj,
      ⟨j, hmarked, rfl⟩, rfl⟩

/-- Over a list without repetitions the marked items are read back. -/
theorem decode_encode {items : Finset ι} {order : List ι} {field : BitField ι} (h : order.Nodup)
    (hfield : encode items order = some field) (item : ι) :
    item ∈ decode field order ↔ item ∈ items ∧ item ∈ order := by
  have hgrown : item ∈ decode field ([] ++ order ++ []) ↔ item ∈ items ∧ item ∈ order :=
    decode_encode_of_grown (by simpa using h) hfield item
  simpa using hgrown

section moved

/-- The last marked item of a list. -/
structure IsLast (items : Finset ι) (order : List ι) (anchor : ι) : Prop where
  mem : anchor ∈ items
  mem_order : anchor ∈ order
  last : ∀ item ∈ items, item ∈ order → order.idxOf item ≤ order.idxOf anchor

/-- Seen from the last marked item, `item` stands in the new list where the old one has a marked
item. -/
def InPlace (items : Finset ι) (order order' : List ι) (item : ι) : Prop :=
  ∃ anchor other, IsLast items order anchor ∧ anchor ∈ order' ∧ other ∈ items ∧ other ∈ order ∧
    (order'.idxOf item : Int) - order'.idxOf anchor = order.idxOf other - order.idxOf anchor

variable {items : Finset ι} {order order' : List ι} {anchor item : ι} {field : BitField ι}

theorem idxOf_of_getElem? (h : order.Nodup) {i : ℕ} (hi : order[i]? = some item) :
    order.idxOf item = i := by
  obtain ⟨hlt, rfl⟩ := List.getElem?_eq_some_iff.mp hi
  exact h.idxOf_getElem i hlt

theorem getElem?_idxOf (h : item ∈ order) : order[order.idxOf item]? = some item :=
  List.getElem?_eq_some_iff.mpr ⟨List.idxOf_lt_length_of_mem h, List.getElem_idxOf _⟩

theorem mem_marked_iff_idxOf (h : order.Nodup) {i : ℕ} :
    i ∈ marked items order ↔ ∃ other ∈ items, other ∈ order ∧ order.idxOf other = i := by
  rw [mem_marked]
  constructor
  · rintro ⟨other, hi, hother⟩
    exact ⟨other, hother, List.mem_of_getElem? hi, idxOf_of_getElem? h hi⟩
  · rintro ⟨other, hother, hmem, rfl⟩
    exact ⟨other, getElem?_idxOf hmem, hother⟩

theorem last_mem_marked {i : ℕ} (h : i ∈ marked items order) :
    (marked items order).getLastD 0 ∈ marked items order := by
  have hne := List.ne_nil_of_mem h
  rw [List.getLastD_eq_getLast?, List.getLast?_eq_some_getLast hne]
  exact List.getLast_mem hne

theorem isLast_iff (h : order.Nodup) {i : ℕ} (hi : i ∈ marked items order) :
    IsLast items order anchor ↔ order[(marked items order).getLastD 0]? = some anchor := by
  obtain ⟨last, hlast, hmem, hidx⟩ := (mem_marked_iff_idxOf h).mp (last_mem_marked hi)
  have hget : order[(marked items order).getLastD 0]? = some last := hidx ▸ getElem?_idxOf hmem
  constructor
  · intro ha
    have hle := le_last_of_mem_marked
      ((mem_marked_iff_idxOf h).mpr ⟨anchor, ha.mem, ha.mem_order, rfl⟩)
    have hge := ha.last last hlast hmem
    rw [← getElem?_idxOf ha.mem_order]
    congr 1
    omega
  · intro ha
    obtain rfl : last = anchor := Option.some.inj (hget.symm.trans ha)
    exact ⟨hlast, hmem, fun other hother hin ↦ hidx ▸ le_last_of_mem_marked
      ((mem_marked_iff_idxOf h).mpr ⟨other, hother, hin, rfl⟩)⟩

/-- What is read back over any other list: the items in place. -/
theorem mem_decode_encode_iff (h : order.Nodup) (h' : order'.Nodup)
    (hfield : encode items order = some field) (hitem : item ∈ order') :
    item ∈ decode field order' ↔ InPlace items order order' item := by
  obtain ⟨anchor, hanchor, rfl⟩ := Option.map_eq_some_iff.mp hfield
  have hlast := idxOf_of_getElem? h hanchor
  have hreads (i : ℕ) : BitField.reads ⟨anchor, ((marked items order).getLastD 0 : ℕ) + 1,
      (marked items order).foldl setBit (zeros order.length)⟩ order' i = true ↔
        ∃ j ∈ marked items order,
          (i : Int) - order'.idxOf anchor = j - order.idxOf anchor := by
    simp only [BitField.reads, testBit_marked, Bool.and_eq_true, decide_eq_true_eq, hlast]
    constructor
    · rintro ⟨hrange, hmarked⟩
      exact ⟨_, hmarked, by omega⟩
    · rintro ⟨j, hj, heq⟩
      have hle := le_last_of_mem_marked hj
      have hprevious : (i : Int) + (((marked items order).getLastD 0 : ℕ) + 1 - 1 -
          (order'.idxOf anchor : Int)) = j := by
        omega
      rw [hprevious, Int.toNat_natCast]
      exact ⟨by omega, hj⟩
  have hdecode : item ∈ decode ⟨anchor, ((marked items order).getLastD 0 : ℕ) + 1,
      (marked items order).foldl setBit (zeros order.length)⟩ order' ↔
        anchor ∈ order' ∧ ∃ j ∈ marked items order,
          (order'.idxOf item : Int) - order'.idxOf anchor = j - order.idxOf anchor := by
    rw [decode]
    split_ifs with hin
    · rw [List.mem_toFinset, List.mem_filterMap]
      simp only [Option.ite_none_right_eq_some, Option.some.injEq, Prod.exists, hreads,
        List.mem_zipIdx_iff_getElem?]
      constructor
      · rintro ⟨a, i, hi, hj, rfl⟩
        exact ⟨hin.1, idxOf_of_getElem? h' hi ▸ hj⟩
      · rintro ⟨-, hj⟩
        exact ⟨item, _, getElem?_idxOf hitem, hj, rfl⟩
    · exact iff_of_false (by simp) fun ⟨hmem, _⟩ ↦ hin ⟨hmem, by dsimp only; omega⟩
  rw [hdecode]
  constructor
  · rintro ⟨hin, j, hj, heq⟩
    obtain ⟨other, hother, hmem, rfl⟩ := (mem_marked_iff_idxOf h).mp hj
    exact ⟨anchor, other, (isLast_iff h hj).mpr hanchor, hin, hother, hmem, heq⟩
  · rintro ⟨last, other, hislast, hin, hother, hmem, heq⟩
    have hj := (mem_marked_iff_idxOf h).mpr ⟨other, hother, hmem, rfl⟩
    obtain rfl : anchor = last :=
      Option.some.inj (hanchor.symm.trans ((isLast_iff h hj).mp hislast))
    exact ⟨hin, _, hj, heq⟩

end moved

end AnyList.Library.AnchoredBits
