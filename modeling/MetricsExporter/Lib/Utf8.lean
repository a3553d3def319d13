/-
# MetricsExporter.Lib.Utf8 -- decoding octets to characters, replacing what is ill-formed

`decode` runs over any octet list and emits `some c` for every well-formed character and `none` for
every maximal ill-formed subpart: a sequence is abandoned at the first octet that cannot continue
it, and that octet is read afresh. Replacing each `none` by U+FFFD is the usual lossy decoding
(`lossy`); refusing the list when there is one is the strict decoding (`strict`).

The theorem is the round trip: the octets of a character decode to that character, in front of any
further octets, so encoded text is never altered. What becomes of ill-formed octets is fixed by the
definition, and only two facts about it are needed: ASCII octets stand for themselves, and lossy
decoding keeps distinct ASCII texts apart. In general it does not, as it maps all ill-formed
subparts to the one character.
-/
import Mathlib.Data.List.Basic
import Mathlib.Tactic.IntervalCases

namespace MetricsExporter.Lib.Utf8

/-- An unfinished character: the octets still owed after the next one, the range of the next one,
and the bits read so far. -/
structure Pending where
  owed : Nat
  low : Nat
  high : Nat
  bits : Nat
  deriving DecidableEq, Repr

/-- An octet read between characters: what is emitted at once and what is then pending. -/
def first (b : Nat) : List (Option Char) × Option Pending :=
  if b < 0x80 then ([some (Char.ofNat b)], none)
  -- 0xC0 and 0xC1 could only start overlong forms of ASCII characters, so they start nothing.
  else if 0xC2 ≤ b ∧ b ≤ 0xDF then ([], some ⟨0, 0x80, 0xBF, b - 0xC0⟩)
  -- The narrowed ranges keep out overlong forms (0xE0, 0xF0), surrogates (0xED) and what lies
  -- beyond U+10FFFF (0xF4).
  else if b = 0xE0 then ([], some ⟨1, 0xA0, 0xBF, 0⟩)
  else if b = 0xED then ([], some ⟨1, 0x80, 0x9F, 0xD⟩)
  else if 0xE1 ≤ b ∧ b ≤ 0xEF then ([], some ⟨1, 0x80, 0xBF, b - 0xE0⟩)
  else if b = 0xF0 then ([], some ⟨2, 0x90, 0xBF, 0⟩)
  else if 0xF1 ≤ b ∧ b ≤ 0xF3 then ([], some ⟨2, 0x80, 0xBF, b - 0xF0⟩)
  else if b = 0xF4 then ([], some ⟨2, 0x80, 0x8F, 4⟩)
  else ([none], none)

/-- An octet read inside a character. -/
def next (p : Pending) (b : Nat) : List (Option Char) × Option Pending :=
  if p.low ≤ b ∧ b ≤ p.high then
    let bits := p.bits * 64 + (b - 0x80)
    if p.owed = 0 then ([some (Char.ofNat bits)], none)
    else ([], some ⟨p.owed - 1, 0x80, 0xBF, bits⟩)
  else
    -- The sequence so far is one ill-formed subpart; the octet starts over.
    (none :: (first b).1, (first b).2)

/-- The characters of an octet list, `none` where it is ill-formed. -/
def decode : Option Pending → List UInt8 → List (Option Char)
  | none, [] => []
  | some _, [] => [none]
  | none, b :: bs => (first b.toNat).1 ++ decode (first b.toNat).2 bs
  | some p, b :: bs => (next p b.toNat).1 ++ decode (next p b.toNat).2 bs

/-- Lossy decoding: U+FFFD for every ill-formed subpart. -/
def lossy (bs : List UInt8) : String :=
  String.ofList ((decode none bs).map (fun c => c.getD '\uFFFD'))

/-- Strict decoding: `none` when any part is ill-formed. -/
def strict (bs : List UInt8) : Option String :=
  ((decode none bs).mapM id).map String.ofList

/-- The octets of a text. -/
def encode (s : String) : List UInt8 :=
  s.toList.flatMap String.utf8EncodeChar

/-! ## Round trip -/

/-- The lead octet of a three-octet character with leading bits `w`. -/
theorem first_three {w : Nat} (hw : w < 16) :
    first (w + 0xE0) =
      ([], some ⟨1, if w = 0 then 0xA0 else 0x80, if w = 0xD then 0x9F else 0xBF, w⟩) := by
  interval_cases w <;> rfl

/-- The lead octet of a four-octet character with leading bits `w`. -/
theorem first_four {w : Nat} (hw : w < 5) :
    first (w + 0xF0) =
      ([], some ⟨2, if w = 0 then 0x90 else 0x80, if w = 4 then 0x8F else 0xBF, w⟩) := by
  interval_cases w <;> rfl

/-- The last continuation octet completes the character. -/
theorem decode_last {low high bits x n : Nat} (hx : x < 64) (hlow : low ≤ x + 128)
    (hhigh : x + 128 ≤ high) (hn : bits * 64 + x = n) (bs : List UInt8) :
    decode (some ⟨0, low, high, bits⟩) (UInt8.ofNat (x + 128) :: bs) =
      some (Char.ofNat n) :: decode none bs := by
  have hsub : bits * 64 + (x + 128 - 0x80) = n := by omega
  rw [decode, UInt8.toNat_ofNat_of_lt' (show x + 128 < 256 by omega), next,
    if_pos ⟨hlow, hhigh⟩, hsub]
  rfl

/-- A continuation octet that is not the last hands its bits on. -/
theorem decode_more {owed low high bits x n : Nat} (hx : x < 64) (hlow : low ≤ x + 128)
    (hhigh : x + 128 ≤ high) (hn : bits * 64 + x = n) (bs : List UInt8) :
    decode (some ⟨owed + 1, low, high, bits⟩) (UInt8.ofNat (x + 128) :: bs) =
      decode (some ⟨owed, 0x80, 0xBF, n⟩) bs := by
  have hsub : bits * 64 + (x + 128 - 0x80) = n := by omega
  rw [decode, UInt8.toNat_ofNat_of_lt' (show x + 128 < 256 by omega), next,
    if_pos ⟨hlow, hhigh⟩, hsub]
  rfl

/-- **One character.** The octets of `c` decode to `c`, whatever follows. -/
theorem decode_utf8EncodeChar (c : Char) (bs : List UInt8) :
    decode none (String.utf8EncodeChar c ++ bs) = some c :: decode none bs := by
  have hvalid : c.val.toNat < 0xD800 ∨ 0xDFFF < c.val.toNat ∧ c.val.toNat < 0x110000 := c.valid
  have hc : Char.ofNat c.val.toNat = c := Char.ofNat_toNat c
  simp only [String.utf8EncodeChar]
  generalize c.val.toNat = v at hvalid hc
  subst hc
  -- one, two, three or four octets, by the value of the character
  split
  case isTrue h1 =>
    simp only [List.cons_append, List.nil_append, decode, first,
      UInt8.toNat_ofNat_of_lt' (show v < 256 by omega), if_pos (show v < 0x80 by omega)]
  case isFalse h1 =>
  split
  case isTrue h2 =>
    have hlead : first (v / 64 % 32 + 192) = ([], some ⟨0, 0x80, 0xBF, v / 64⟩) := by
      have hrange : 0xC2 ≤ v / 64 % 32 + 192 ∧ v / 64 % 32 + 192 ≤ 0xDF := by omega
      have hbits : v / 64 % 32 + 192 - 0xC0 = v / 64 := by omega
      rw [first, if_neg (by omega), if_pos hrange, hbits]
    simp only [List.cons_append, List.nil_append]
    rw [decode, UInt8.toNat_ofNat_of_lt' (show v / 64 % 32 + 192 < 256 by omega), hlead]
    exact decode_last (by omega) (by omega) (by omega) (by omega) bs
  case isFalse h2 =>
  split
  case isTrue h3 =>
    -- that `c` is no surrogate keeps the second octet in the range that its lead octet allows
    simp only [List.cons_append, List.nil_append]
    rw [decode, UInt8.toNat_ofNat_of_lt' (show v / 4096 % 16 + 224 < 256 by omega),
      first_three (by omega), List.nil_append,
      decode_more (n := v / 64) (by omega) (by split <;> omega) (by split <;> omega) (by omega)]
    exact decode_last (by omega) (by omega) (by omega) (by omega) bs
  case isFalse h3 =>
    simp only [List.cons_append, List.nil_append]
    rw [decode, UInt8.toNat_ofNat_of_lt' (show v / 262144 % 8 + 240 < 256 by omega),
      first_four (by omega), List.nil_append,
      decode_more (n := v / 4096) (by omega) (by split <;> omega) (by split <;> omega) (by omega),
      decode_more (n := v / 64) (by omega) (by omega) (by omega) (by omega)]
    exact decode_last (by omega) (by omega) (by omega) (by omega) bs

/-- **Round trip.** Encoded text decodes to its characters. -/
theorem decode_encode (s : String) : decode none (encode s) = s.toList.map some := by
  suffices h : ∀ cs : List Char, decode none (cs.flatMap String.utf8EncodeChar) = cs.map some from
    h s.toList
  intro cs
  induction cs with
  | nil => rfl
  | cons c cs ih => rw [List.flatMap_cons, decode_utf8EncodeChar, ih, List.map_cons]

/-- Text is its own lossy decoding. -/
@[simp]
theorem lossy_encode (s : String) : lossy (encode s) = s := by
  simp [lossy, decode_encode]

/-- Text is never refused. -/
@[simp]
theorem strict_encode (s : String) : strict (encode s) = some s := by
  have hchars : (s.toList.map some).mapM id = some s.toList := by
    induction s.toList with
    | nil => rfl
    | cons c cs ih =>
        rw [List.map_cons, List.mapM_cons, ih]
        rfl
  rw [strict, decode_encode, hchars, Option.map_some, String.ofList_toList]

/-! ## ASCII -/

/-- ASCII octets decode one by one. -/
theorem decode_ascii {bs : List UInt8} (hbs : ∀ b ∈ bs, b.toNat < 0x80) :
    decode none bs = bs.map (fun b => some (Char.ofNat b.toNat)) := by
  induction bs with
  | nil => rfl
  | cons b bs ih =>
      rw [decode, first, if_pos (hbs b (by simp))]
      simp [ih fun x hx => hbs x (List.mem_cons_of_mem b hx)]

/-- An ASCII code is that of its character. -/
theorem toNat_ofNat_ascii : ∀ n < 0x80, (Char.ofNat n).toNat = n := by
  decide

/-- Lossy decoding keeps distinct ASCII texts distinct. -/
theorem lossy_injOn_ascii {as bs : List UInt8} (has : ∀ a ∈ as, a.toNat < 0x80)
    (hbs : ∀ b ∈ bs, b.toNat < 0x80) (h : lossy as = lossy bs) : as = bs := by
  have hchar : ∀ a b : UInt8, a.toNat < 0x80 → b.toNat < 0x80 →
      Char.ofNat a.toNat = Char.ofNat b.toNat → a = b := by
    intro a b ha hb hab
    have hnat := congrArg Char.toNat hab
    rw [toNat_ofNat_ascii _ ha, toNat_ofNat_ascii _ hb] at hnat
    exact UInt8.toNat_inj.mp hnat
  simp only [lossy, decode_ascii has, decode_ascii hbs, List.map_map] at h
  have hlist := String.ofList_injective h
  clear h
  induction as generalizing bs with
  | nil => cases bs <;> simp_all
  | cons a as ih =>
      -- the first characters agree, so the first octets do; the rest is the induction
      cases bs with
      | nil => simp at hlist
      | cons b bs =>
          simp only [List.map_cons, List.cons.injEq, Function.comp_apply, Option.getD_some] at hlist
          rw [hchar a b (has a (by simp)) (hbs b (by simp)) hlist.1,
            ih (fun x hx => has x (List.mem_cons_of_mem a hx))
              (fun x hx => hbs x (List.mem_cons_of_mem b hx)) hlist.2]

/-- An octet below `0x80` in the encoding of a character is that character. -/
theorem toNat_eq_of_mem_utf8EncodeChar {c : Char} {b : UInt8} (hb : b ∈ String.utf8EncodeChar c)
    (hascii : b.toNat < 0x80) : c.toNat = b.toNat := by
  -- every octet of a longer encoding has its high bit set
  have hhigh : ∀ x w, w < 128 → x = w + 128 → b ≠ UInt8.ofNat x := by
    rintro x w hw rfl rfl
    rw [UInt8.toNat_ofNat_of_lt' (show w + 128 < 256 by omega)] at hascii
    omega
  show c.val.toNat = b.toNat
  unfold String.utf8EncodeChar at hb
  generalize c.val.toNat = v at hb
  dsimp only at hb
  split at hb
  · obtain rfl := List.mem_singleton.mp hb
    exact (UInt8.toNat_ofNat_of_lt' (show v < 256 by omega)).symm
  · exfalso
    split at hb
    · simp only [List.mem_cons, List.not_mem_nil, or_false] at hb
      rcases hb with hb | hb
      · exact hhigh _ (v / 64 % 32 + 64) (by omega) (by omega) hb
      · exact hhigh _ (v % 64) (by omega) (by omega) hb
    · split at hb
      · simp only [List.mem_cons, List.not_mem_nil, or_false] at hb
        rcases hb with hb | hb | hb
        · exact hhigh _ (v / 4096 % 16 + 96) (by omega) (by omega) hb
        · exact hhigh _ (v / 64 % 64) (by omega) (by omega) hb
        · exact hhigh _ (v % 64) (by omega) (by omega) hb
      · simp only [List.mem_cons, List.not_mem_nil, or_false] at hb
        rcases hb with hb | hb | hb | hb
        · exact hhigh _ (v / 262144 % 8 + 112) (by omega) (by omega) hb
        · exact hhigh _ (v / 4096 % 64) (by omega) (by omega) hb
        · exact hhigh _ (v / 64 % 64) (by omega) (by omega) hb
        · exact hhigh _ (v % 64) (by omega) (by omega) hb

/-- The ASCII octets of an encoded text are its ASCII characters. -/
theorem mem_encode_ascii {s : String} {b : UInt8} (hb : b ∈ encode s) (hascii : b.toNat < 0x80) :
    ∃ c ∈ s.toList, c.toNat = b.toNat := by
  obtain ⟨c, hc, hb⟩ := List.mem_flatMap.mp hb
  exact ⟨c, hc, toNat_eq_of_mem_utf8EncodeChar hb hascii⟩

/-- Only the empty text has no octets. -/
theorem encode_ne_nil {s : String} (hs : s ≠ "") : encode s ≠ [] := by
  intro hnil
  apply hs
  rw [← lossy_encode s, hnil]
  rfl

end MetricsExporter.Lib.Utf8
