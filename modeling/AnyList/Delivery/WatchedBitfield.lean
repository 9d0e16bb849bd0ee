import AnyList.Library.AnchoredBits
import Mathlib.Data.List.TakeWhile

namespace AnyList.Delivery.WatchedBitfield

open AnyList.Library.BitArray AnyList.Library.AnchoredBits

/-- What the standard library does with the texts of a delivery: `int`, the zlib and
base64 packing of bytes, and the ISO form of a time in milliseconds. -/
structure Texts where
  int : String → Option Int
  pack : Bytes → String
  unpack : String → Option Bytes
  iso : Int → String
  int_toString : ∀ n : ℕ, int (toString n) = some (n : Int)
  unpack_pack : ∀ bytes, unpack (pack bytes) = some bytes
  colon_notMem_pack : ∀ bytes, ':' ∉ (pack bytes).toList

def rsplit (text : List Char) : Option (List Char × List Char) :=
  match text.reverse.dropWhile (· ≠ ':') with
  | [] => none
  | _ :: front => some (front.reverse, (text.reverse.takeWhile (· ≠ ':')).reverse)

theorem rsplit_append {front last : List Char} (h : ':' ∉ last) :
    rsplit (front ++ ':' :: last) = some (front, last) := by
  have hall : ∀ c ∈ last.reverse, decide (c ≠ ':') = true := by
    intro c hc
    simpa using fun heq : c = ':' ↦ h (heq ▸ List.mem_reverse.mp hc)
  have hrev : (front ++ ':' :: last).reverse = last.reverse ++ ':' :: front.reverse := by simp
  rw [rsplit, hrev, List.dropWhile_append_of_pos hall, List.takeWhile_append_of_pos hall]
  simp

theorem colon_notMem_toString (n : ℕ) : ':' ∉ (toString n).toList := by
  intro h
  rw [Nat.toString_eq_repr, Nat.repr_eq_ofList_toDigits, String.toList_ofList] at h
  exact absurd (Nat.isDigit_of_mem_toDigits (by decide) (by decide) h) (by decide)

variable (texts : Texts)

/-- The serialized field, split from the right: a video id may hold colons too. -/
def readField (serialized : String) : Option (BitField String) := do
  let (front, packed) ← rsplit serialized.toList
  let (anchor, length) ← rsplit front
  let length ← texts.int (String.ofList length)
  let bits ← texts.unpack (String.ofList packed)
  pure ⟨String.ofList anchor, length, bits⟩

def writeField (field : BitField String) : String :=
  field.anchor ++ ":" ++ toString field.length.toNat ++ ":" ++ texts.pack field.bits

theorem readField_writeField {field : BitField String} (h : 0 ≤ field.length) :
    readField texts (writeField texts field) = some field := by
  have htext : (writeField texts field).toList = (field.anchor.toList ++
      ':' :: (toString field.length.toNat).toList) ++ ':' :: (texts.pack field.bits).toList := by
    simp [writeField]
  simp only [readField, htext, rsplit_append (texts.colon_notMem_pack field.bits),
    rsplit_append (colon_notMem_toString field.length.toNat), Option.bind_eq_bind,
    Option.bind_some, String.ofList_toList, texts.int_toString, texts.unpack_pack,
    Int.toNat_of_nonneg h, Option.pure_def]

def decodeWatchedBitfield (serialized : Option String) (videoIds : List String) :
    Finset String :=
  match serialized.bind (readField texts) with
  | some field => decode field videoIds
  | none => ∅

def encodeWatchedBitfield (watchedIds : Finset String) (videoIds : List String) :
    Option String :=
  (encode watchedIds videoIds).map (writeField texts)

@[simp] theorem decodeWatchedBitfield_none (videoIds : List String) :
    decodeWatchedBitfield texts none videoIds = ∅ := rfl

theorem mem_of_mem_decodeWatchedBitfield {serialized : Option String} {videoIds : List String}
    {videoId : String} (h : videoId ∈ decodeWatchedBitfield texts serialized videoIds) :
    videoId ∈ videoIds := by
  unfold decodeWatchedBitfield at h
  split at h
  · exact mem_of_mem_decode h
  · simp at h

/-- A pull reads back what a push wrote, also when videos were added around the old ones. -/
theorem mem_decode_grown {watchedIds : Finset String} {before videoIds after : List String}
    (h : (before ++ videoIds ++ after).Nodup) (videoId : String) :
    videoId ∈ decodeWatchedBitfield texts (encodeWatchedBitfield texts watchedIds videoIds)
        (before ++ videoIds ++ after) ↔ videoId ∈ watchedIds ∧ videoId ∈ videoIds := by
  cases hfield : encode watchedIds videoIds with
  | none =>
    have hnil : videoIds = [] := encode_eq_none.mp hfield
    simp only [encodeWatchedBitfield, hfield, Option.map_none]
    simp [hnil]
  | some field =>
    have hread : readField texts (writeField texts field) = some field :=
      readField_writeField texts (length_nonneg_of_encode hfield)
    simp only [encodeWatchedBitfield, decodeWatchedBitfield, hfield, Option.map_some,
      Option.bind_some, hread]
    exact decode_encode_of_grown h hfield videoId

theorem mem_decode_encodeWatchedBitfield {watchedIds : Finset String} {videoIds : List String}
    (h : videoIds.Nodup) (videoId : String) :
    videoId ∈ decodeWatchedBitfield texts (encodeWatchedBitfield texts watchedIds videoIds)
        videoIds ↔ videoId ∈ watchedIds ∧ videoId ∈ videoIds := by
  have hgrown : videoId ∈ decodeWatchedBitfield texts (encodeWatchedBitfield texts watchedIds
      videoIds) ([] ++ videoIds ++ []) ↔ videoId ∈ watchedIds ∧ videoId ∈ videoIds :=
    mem_decode_grown texts (by simpa using h) videoId
  simpa using hgrown

end AnyList.Delivery.WatchedBitfield
