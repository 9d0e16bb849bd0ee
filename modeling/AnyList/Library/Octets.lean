import Mathlib.Algebra.Order.Ring.Nat
import Mathlib.Data.List.Basic
import Mathlib.Data.List.Induction

namespace AnyList.Library.Octets

/-- Text is a list of code points. -/
abbrev Text := List ℕ

def Surrogate (c : ℕ) : Prop := 0xD800 ≤ c ∧ c < 0xE000

def Scalar (c : ℕ) : Prop := c < 0x110000 ∧ ¬Surrogate c

instance decidableSurrogate (c : ℕ) : Decidable (Surrogate c) := inferInstanceAs (Decidable (_ ∧ _))

instance decidableScalar (c : ℕ) : Decidable (Scalar c) := inferInstanceAs (Decidable (_ ∧ _))

/-- A code point of one octet, which is not zero. -/
def Ascii (c : ℕ) : Prop := 0 < c ∧ c < 0x80

instance decidableAscii (c : ℕ) : Decidable (Ascii c) := inferInstanceAs (Decidable (_ ∧ _))

theorem Ascii.scalar {c : ℕ} (h : Ascii c) : Scalar c :=
  ⟨by have := h.2; omega, fun hs ↦ by have := h.2; have := hs.1; omega⟩

section bigEndian

/-- The number of some octets, the highest first. -/
def number (octets : List ℕ) : ℕ := octets.foldl (fun n octet ↦ n * 256 + octet) 0

/-- A number in so many octets, the highest first. -/
def packed : ℕ → ℕ → List ℕ
  | 0, _ => []
  | width + 1, n => packed width (n / 256) ++ [n % 256]

theorem length_packed (width n : ℕ) : (packed width n).length = width := by
  induction width generalizing n with
  | zero => rfl
  | succ width ih => rw [packed, List.length_append, ih, List.length_singleton]

theorem packed_lt {width n octet : ℕ} (h : octet ∈ packed width n) : octet < 256 := by
  induction width generalizing n with
  | zero => exact absurd h List.not_mem_nil
  | succ width ih =>
    rcases List.mem_append.mp h with h | h
    · exact ih h
    · rw [List.mem_singleton.mp h]
      exact Nat.mod_lt _ (by omega)

theorem number_append_singleton (octets : List ℕ) (octet : ℕ) :
    number (octets ++ [octet]) = number octets * 256 + octet := by
  rw [number, List.foldl_append]
  rfl

theorem number_packed {width n : ℕ} (h : n < 256 ^ width) : number (packed width n) = n := by
  induction width generalizing n with
  | zero =>
    rw [Nat.pow_zero] at h
    rw [Nat.lt_one_iff.mp h]
    rfl
  | succ width ih =>
    have hdiv : n / 256 < 256 ^ width := Nat.div_lt_of_lt_mul (by rwa [Nat.mul_comm, ← Nat.pow_succ])
    rw [packed, number_append_singleton, ih hdiv]
    omega

theorem number_lt {octets : List ℕ} (h : ∀ octet ∈ octets, octet < 256) :
    number octets < 256 ^ octets.length := by
  induction octets using List.reverseRecOn with
  | nil => exact Nat.one_pos
  | append_singleton octets octet ih =>
    have hoctet : octet < 256 := h octet (by simp)
    have hoctets := ih fun other hother ↦ h other (List.mem_append_left _ hother)
    rw [number_append_singleton, List.length_append, List.length_singleton, Nat.pow_succ]
    omega

theorem packed_number {octets : List ℕ} (h : ∀ octet ∈ octets, octet < 256) :
    packed octets.length (number octets) = octets := by
  induction octets using List.reverseRecOn with
  | nil => rfl
  | append_singleton octets octet ih =>
    have hoctet : octet < 256 := h octet (by simp)
    rw [List.length_append, List.length_singleton, packed, number_append_singleton,
      Nat.add_comm, Nat.add_mul_mod_self_right, Nat.mod_eq_of_lt hoctet,
      Nat.add_mul_div_right _ _ (by omega), Nat.div_eq_of_lt hoctet, Nat.zero_add,
      ih fun other hother ↦ h other (List.mem_append_left _ hother)]

end bigEndian

section utf8

def Tail (octet : ℕ) : Prop := 0x80 ≤ octet ∧ octet < 0xC0

instance decidableTail (octet : ℕ) : Decidable (Tail octet) := inferInstanceAs (Decidable (_ ∧ _))

/-- The octets of a code point. -/
def utf8Octets (c : ℕ) : List ℕ :=
  if c < 0x80 then [c]
  else if c < 0x800 then [0xC0 + c / 64, 0x80 + c % 64]
  else if c < 0x10000 then [0xE0 + c / 4096, 0x80 + c / 64 % 64, 0x80 + c % 64]
  else [0xF0 + c / 262144, 0x80 + c / 4096 % 64, 0x80 + c / 64 % 64, 0x80 + c % 64]

/-- Text that has no surrogates. -/
def encodeUtf8 (text : Text) : Option (List ℕ) :=
  if ∀ c ∈ text, Scalar c then some (text.flatMap utf8Octets) else none

def two (a b : ℕ) : ℕ := (a - 0xC0) * 64 + (b - 0x80)

def three (a b c : ℕ) : ℕ := (a - 0xE0) * 4096 + (b - 0x80) * 64 + (c - 0x80)

def four (a b c d : ℕ) : ℕ :=
  (a - 0xF0) * 262144 + (b - 0x80) * 4096 + (c - 0x80) * 64 + (d - 0x80)

/-- The shortest encodings, of surrogates only where they may pass. -/
def decodeUtf8 (surrogates : Bool) : List ℕ → Option Text
  | [] => some []
  | a :: rest =>
    if a < 0x80 then (decodeUtf8 surrogates rest).map (a :: ·)
    else match rest with
    | [] => none
    | b :: rest =>
      if 0xC2 ≤ a ∧ a < 0xE0 ∧ Tail b then (decodeUtf8 surrogates rest).map (two a b :: ·)
      else match rest with
      | [] => none
      | c :: rest =>
        if 0xE0 ≤ a ∧ a < 0xF0 ∧ Tail b ∧ Tail c ∧ 0x800 ≤ three a b c ∧
            (surrogates = true ∨ ¬Surrogate (three a b c)) then
          (decodeUtf8 surrogates rest).map (three a b c :: ·)
        else match rest with
        | [] => none
        | d :: rest =>
          if 0xF0 ≤ a ∧ Tail b ∧ Tail c ∧ Tail d ∧ 0x10000 ≤ four a b c d ∧
              four a b c d < 0x110000 then
            (decodeUtf8 surrogates rest).map (four a b c d :: ·)
          else none

variable {surrogates : Bool} {text : Text} {octets : List ℕ}

theorem utf8Octets_lt {c octet : ℕ} (hc : c < 0x110000) (h : octet ∈ utf8Octets c) :
    octet < 256 := by
  rw [utf8Octets] at h
  split_ifs at h <;> simp only [List.mem_cons, List.not_mem_nil, or_false] at h <;> omega

theorem decodeUtf8_append {c : ℕ} (hc : Scalar c) (rest : List ℕ) :
    decodeUtf8 surrogates (utf8Octets c ++ rest) = (decodeUtf8 surrogates rest).map (c :: ·) := by
  obtain ⟨hlt, hscalar⟩ := hc
  rw [utf8Octets]
  split_ifs with h1 h2 h3
  · rw [List.singleton_append, decodeUtf8.eq_def]
    exact if_pos h1
  · have htwo : two (0xC0 + c / 64) (0x80 + c % 64) = c := by unfold two; omega
    rw [List.cons_append, List.singleton_append, decodeUtf8.eq_def]
    dsimp only
    rw [if_neg (by omega), if_pos ⟨by omega, by omega, by constructor <;> omega⟩, htwo]
  · have hthree : three (0xE0 + c / 4096) (0x80 + c / 64 % 64) (0x80 + c % 64) = c := by
      unfold three; omega
    rw [List.cons_append, List.cons_append, List.singleton_append, decodeUtf8.eq_def]
    dsimp only
    rw [if_neg (by omega), if_neg (by omega), hthree,
      if_pos ⟨by omega, by omega, by constructor <;> omega, by constructor <;> omega, by omega,
        .inr hscalar⟩]
  · have hfour : four (0xF0 + c / 262144) (0x80 + c / 4096 % 64) (0x80 + c / 64 % 64)
        (0x80 + c % 64) = c := by
      unfold four; omega
    rw [List.cons_append, List.cons_append, List.cons_append, List.singleton_append,
      decodeUtf8.eq_def]
    dsimp only
    rw [if_neg (by omega), if_neg (by omega), if_neg (by omega), hfour,
      if_pos ⟨by omega, by constructor <;> omega, by constructor <;> omega,
        by constructor <;> omega, by omega, hlt⟩]

theorem encodeUtf8_eq_some : encodeUtf8 text = some octets ↔
    (∀ c ∈ text, Scalar c) ∧ text.flatMap utf8Octets = octets := by
  rw [encodeUtf8]
  split_ifs with h
  · rw [Option.some.injEq, and_iff_right h]
  · exact iff_of_false (by simp) fun h' ↦ h h'.1

theorem decodeUtf8_encodeUtf8 (h : encodeUtf8 text = some octets) :
    decodeUtf8 surrogates octets = some text := by
  obtain ⟨hscalar, rfl⟩ := encodeUtf8_eq_some.mp h
  clear h
  induction text with
  | nil => rfl
  | cons c text ih =>
    rw [List.flatMap_cons, decodeUtf8_append (hscalar c List.mem_cons_self),
      ih fun other hother ↦ hscalar other (List.mem_cons_of_mem _ hother)]
    rfl

theorem encodeUtf8_ascii (h : ∀ c ∈ text, Ascii c) : encodeUtf8 text = some text := by
  refine encodeUtf8_eq_some.mpr ⟨fun c hc ↦ (h c hc).scalar, ?_⟩
  · induction text with
    | nil => rfl
    | cons c text ih =>
      obtain ⟨hc, htext⟩ := List.forall_mem_cons.mp h
      rw [List.flatMap_cons, ih htext, utf8Octets, if_pos hc.2]
      rfl

theorem encodeUtf8_cons {c : ℕ} (hc : Scalar c) (h : encodeUtf8 text = some octets) :
    encodeUtf8 (c :: text) = some (utf8Octets c ++ octets) := by
  obtain ⟨hscalar, rfl⟩ := encodeUtf8_eq_some.mp h
  exact encodeUtf8_eq_some.mpr ⟨List.forall_mem_cons.mpr ⟨hc, hscalar⟩, List.flatMap_cons⟩

theorem utf8Octets_two {a b : ℕ} (ha : 0xC2 ≤ a) (ha' : a < 0xE0) (hb : Tail b) :
    Scalar (two a b) ∧ utf8Octets (two a b) = [a, b] := by
  obtain ⟨hb, hb'⟩ := hb
  have hlow : ¬two a b < 0x80 := by unfold two; omega
  have hhigh : two a b < 0x800 := by unfold two; omega
  refine ⟨⟨by omega, fun hs ↦ by have := hs.1; omega⟩, ?_⟩
  rw [utf8Octets, if_neg hlow, if_pos hhigh]
  unfold two
  refine congrArg₂ List.cons (by omega) (congrArg₂ List.cons ?_ rfl)
  omega

theorem utf8Octets_three {a b c : ℕ} (ha : 0xE0 ≤ a) (ha' : a < 0xF0) (hb : Tail b) (hc : Tail c)
    (hlow : 0x800 ≤ three a b c) : utf8Octets (three a b c) = [a, b, c] := by
  obtain ⟨hb, hb'⟩ := hb
  obtain ⟨hc, hc'⟩ := hc
  have hhigh : three a b c < 0x10000 := by unfold three; omega
  rw [utf8Octets, if_neg (by omega), if_neg (by omega), if_pos hhigh]
  unfold three
  refine congrArg₂ List.cons (by omega) (congrArg₂ List.cons (by omega) (congrArg₂ List.cons ?_ rfl))
  omega

theorem utf8Octets_four {a b c d : ℕ} (ha : 0xF0 ≤ a) (hb : Tail b) (hc : Tail c) (hd : Tail d)
    (hlow : 0x10000 ≤ four a b c d) : utf8Octets (four a b c d) = [a, b, c, d] := by
  obtain ⟨hb, hb'⟩ := hb
  obtain ⟨hc, hc'⟩ := hc
  obtain ⟨hd, hd'⟩ := hd
  rw [utf8Octets, if_neg (by omega), if_neg (by omega), if_neg (by omega)]
  unfold four
  refine congrArg₂ List.cons (by omega) (congrArg₂ List.cons (by omega)
    (congrArg₂ List.cons (by omega) (congrArg₂ List.cons ?_ rfl)))
  omega

/-- Text has one strict encoding. -/
theorem encodeUtf8_decodeUtf8 (h : decodeUtf8 false octets = some text) :
    encodeUtf8 text = some octets := by
  fun_induction decodeUtf8 false octets generalizing text with
  | case1 =>
    cases h
    rfl
  | case2 a rest ha ih =>
    obtain ⟨tail, hrest, rfl⟩ := Option.map_eq_some_iff.mp h
    have ha' : Scalar a := ⟨by omega, fun hs ↦ by have := hs.1; omega⟩
    rw [encodeUtf8_cons ha' (ih hrest), utf8Octets, if_pos ha]
    rfl
  | case4 a ha b rest htwo ih =>
    obtain ⟨tail, hrest, rfl⟩ := Option.map_eq_some_iff.mp h
    obtain ⟨hscalar, hoctets⟩ := utf8Octets_two htwo.1 htwo.2.1 htwo.2.2
    rw [encodeUtf8_cons hscalar (ih hrest), hoctets]
    rfl
  | case6 a ha b hb c rest hthree ih =>
    obtain ⟨tail, hrest, rfl⟩ := Option.map_eq_some_iff.mp h
    obtain ⟨ha, ha', hb, hc, hlow, hscalar⟩ := hthree
    have hscalar : Scalar (three a b c) :=
      ⟨by have := hb.2; have := hc.2; unfold three; omega, hscalar.resolve_left Bool.false_ne_true⟩
    rw [encodeUtf8_cons hscalar (ih hrest), utf8Octets_three ha ha' hb hc hlow]
    rfl
  | case8 a ha b hb c hc d rest hfour ih =>
    obtain ⟨tail, hrest, rfl⟩ := Option.map_eq_some_iff.mp h
    obtain ⟨ha, hb, hc, hd, hlow, hhigh⟩ := hfour
    have hscalar : Scalar (four a b c d) := ⟨hhigh, fun hs ↦ by have := hs.2; omega⟩
    rw [encodeUtf8_cons hscalar (ih hrest), utf8Octets_four ha hb hc hd hlow]
    rfl
  | _ => cases h

end utf8

end AnyList.Library.Octets
