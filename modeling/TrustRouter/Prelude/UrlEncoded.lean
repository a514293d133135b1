import Mathlib.Data.List.Basic
import Mathlib.Data.List.Infix
import Mathlib.Tactic.Common

/-!
# Query strings

The format `application/x-www-form-urlencoded`: names and values are written as the bytes of
their UTF-8 form, a space as `+`, and every byte that is not plain as `%` with two hexadecimal
digits.  Encoders differ in what they take for plain (`Encoder`); a decoder accepts all of them.

A query is read back as the pairs that have been written, whatever characters are in them
(`parse_query`).
-/

namespace TrustRouter

namespace UrlEncoded

/-- The UTF-8 form of a text. -/
def bytes (text : String) : List UInt8 := text.toUTF8.data.toList

/-- `String::from_utf8_lossy`.  A text is found again in its UTF-8 form. -/
class Utf8Lossy where
  decode : List UInt8 → String
  decode_bytes : ∀ text, decode (bytes text) = text

/-- What is no UTF-8 at all may be read as a single replacement character. -/
@[reducible] def Utf8Lossy.strict : Utf8Lossy where
  decode bytes := (String.fromUTF8? ⟨bytes.toArray⟩).getD "\uFFFD"
  decode_bytes text := by
    have valid : ByteArray.IsValidUTF8 ⟨(bytes text).toArray⟩ := text.isValidUTF8
    simp only [String.fromUTF8?, valid, dite_true, Option.getD_some]
    rfl

def space : UInt8 := 32
def percent : UInt8 := 37
def ampersand : UInt8 := 38
def plus : UInt8 := 43
def equals : UInt8 := 61

/-- The bytes with a meaning of their own. -/
def marks : List UInt8 := [percent, ampersand, plus, equals]

def hexDigit (n : ℕ) : UInt8 := if n < 10 then .ofNat (48 + n) else .ofNat (55 + n)

/-- The value of a digit, in either case. -/
def hexValue (byte : UInt8) : Option ℕ :=
  let n := byte.toNat
  if 48 ≤ n ∧ n < 58 then some (n - 48)
  else if 65 ≤ n ∧ n < 71 then some (n - 55)
  else if 97 ≤ n ∧ n < 103 then some (n - 87)
  else none

theorem hexValue_hexDigit : ∀ n < 16, hexValue (hexDigit n) = some n := by decide

theorem hexDigit_notMem_marks : ∀ n < 16, hexDigit n ∉ marks := by decide

/-! ## Writing -/

/-- What an encoder writes as it is, besides the marks and the space. -/
structure Encoder where
  plain : UInt8 → Bool
  notMem_marks : ∀ byte, plain byte = true → byte ∉ marks

namespace Encoder

/-- A letter or a digit of ASCII, or one of some others. -/
def isPlain (others : List UInt8) (byte : UInt8) : Bool :=
  (48 ≤ byte && byte < 58) || (65 ≤ byte && byte < 91) || (97 ≤ byte && byte < 123) ||
    others.contains byte

theorem notMem_marks_of_isPlain {others : List UInt8}
    (other : (marks.all fun mark => !others.contains mark) = true) (byte : UInt8)
    (plain : isPlain others byte = true) : byte ∉ marks := by
  intro mem
  have absent : byte ∉ others := by simpa using List.all_eq_true.mp other byte mem
  simp only [isPlain, Bool.or_eq_true, List.contains_iff_mem, absent, or_false] at plain
  revert plain
  simp only [marks, List.mem_cons, List.not_mem_nil, or_false] at mem
  rcases mem with rfl | rfl | rfl | rfl <;> decide

/-- `quote_plus` of Python, which leaves `_`, `.`, `-` and `~` as they are. -/
def quotePlus : Encoder where
  plain := isPlain [95, 46, 45, 126]
  notMem_marks := notMem_marks_of_isPlain (by decide)

/-- `URLSearchParams` of JavaScript, which leaves `*`, `-`, `.` and `_`. -/
def urlSearchParams : Encoder where
  plain := isPlain [42, 45, 46, 95]
  notMem_marks := notMem_marks_of_isPlain (by decide)

variable (encoder : Encoder)

def encodeByte (byte : UInt8) : List UInt8 :=
  if byte = space then [plus]
  else if encoder.plain byte then [byte]
  else [percent, hexDigit (byte.toNat / 16), hexDigit (byte.toNat % 16)]

def encode (text : String) : List UInt8 := (bytes text).flatMap encoder.encodeByte

/-- A name and its value. -/
def pair (entry : String × String) : List UInt8 :=
  encoder.encode entry.1 ++ equals :: encoder.encode entry.2

def query (pairs : List (String × String)) : List UInt8 :=
  [ampersand].intercalate (pairs.map encoder.pair)

end Encoder

/-! ## Reading -/

/-- Percent decoding.  A `%` without two digits behind it stays as it is. -/
def percentDecode : List UInt8 → List UInt8
  | [] => []
  | [byte] => [byte]
  | [byte, next] => [byte, next]
  | byte :: high :: low :: rest =>
      if byte = percent then
        match hexValue high, hexValue low with
        | some high, some low => .ofNat (16 * high + low) :: percentDecode rest
        | _, _ => byte :: percentDecode (high :: low :: rest)
      else byte :: percentDecode (high :: low :: rest)

def plusToSpace (byte : UInt8) : UInt8 := if byte = plus then space else byte

variable [Utf8Lossy]

def decode (text : List UInt8) : String := Utf8Lossy.decode (percentDecode (text.map plusToSpace))

/-- A piece is split at its first `=`, if it has one. -/
def parsePair (piece : List UInt8) : String × String :=
  (decode (piece.takeWhile (· ≠ equals)), decode (piece.dropWhile (· ≠ equals)).tail)

/-- `form_urlencoded::parse`. -/
def parse (query : List UInt8) : List (String × String) :=
  ((query.splitOn ampersand).filter (· ≠ [])).map parsePair

/-! ## Reading what has been written -/

section Bytes

omit [Utf8Lossy]

theorem percentDecode_cons_ne {byte : UInt8} (other : byte ≠ percent) (rest : List UInt8) :
    percentDecode (byte :: rest) = byte :: percentDecode rest := by
  rcases rest with _ | ⟨high, _ | ⟨low, rest⟩⟩
  · rfl
  · rfl
  · rw [percentDecode, if_neg other]

theorem plusToSpace_of_notMem_marks {byte : UInt8} (other : byte ∉ marks) :
    plusToSpace byte = byte := by
  refine if_neg ?_
  rintro rfl
  exact other (by decide)

theorem percentDecode_digits (byte : UInt8) (rest : List UInt8) :
    percentDecode (percent :: hexDigit (byte.toNat / 16) :: hexDigit (byte.toNat % 16) :: rest) =
      byte :: percentDecode rest := by
  have size : byte.toNat < 256 := byte.toNat_lt
  have high := hexValue_hexDigit (byte.toNat / 16) (by omega)
  have low := hexValue_hexDigit (byte.toNat % 16) (by omega)
  rw [percentDecode, if_pos rfl, high, low]
  simp only [Nat.div_add_mod, UInt8.ofNat_toNat]

variable (encoder : Encoder)

theorem percentDecode_encodeByte (byte : UInt8) (rest : List UInt8) :
    percentDecode ((encoder.encodeByte byte).map plusToSpace ++ rest) =
      byte :: percentDecode rest := by
  have size : byte.toNat < 256 := byte.toNat_lt
  unfold Encoder.encodeByte
  split_ifs with isSpace isPlain
  · subst isSpace
    exact percentDecode_cons_ne (by decide) rest
  · have other := encoder.notMem_marks byte isPlain
    rw [List.map_singleton, plusToSpace_of_notMem_marks other]
    refine percentDecode_cons_ne ?_ rest
    rintro rfl
    exact other (by decide)
  · have high := hexDigit_notMem_marks (byte.toNat / 16) (by omega)
    have low := hexDigit_notMem_marks (byte.toNat % 16) (by omega)
    rw [List.map_cons, List.map_cons, List.map_singleton, plusToSpace_of_notMem_marks high,
      plusToSpace_of_notMem_marks low]
    exact percentDecode_digits byte rest

theorem percentDecode_encode (text : List UInt8) :
    percentDecode ((text.flatMap encoder.encodeByte).map plusToSpace) = text := by
  induction text with
  | nil => rfl
  | cons byte text ih =>
      rw [List.flatMap_cons, List.map_append, percentDecode_encodeByte, ih]

/-- The marks between names and values are not written for a byte. -/
theorem notMem_encodeByte {mark : UInt8} (separates : mark = ampersand ∨ mark = equals)
    (byte : UInt8) : mark ∉ encoder.encodeByte byte := by
  have size : byte.toNat < 256 := byte.toNat_lt
  have isMark : mark ∈ marks := by rcases separates with rfl | rfl <;> decide
  have differs : ∀ digit, digit ∉ marks → mark ≠ digit := by
    rintro digit notMark rfl
    exact notMark isMark
  unfold Encoder.encodeByte
  split_ifs with isSpace isPlain
  · rcases separates with rfl | rfl <;> decide
  · rw [List.mem_singleton]
    exact differs byte (encoder.notMem_marks byte isPlain)
  · have other : mark ≠ percent := by rcases separates with rfl | rfl <;> decide
    have high := differs _ (hexDigit_notMem_marks (byte.toNat / 16) (by omega))
    have low := differs _ (hexDigit_notMem_marks (byte.toNat % 16) (by omega))
    simp [other, high, low]

theorem notMem_encode {mark : UInt8} (separates : mark = ampersand ∨ mark = equals)
    (text : String) : mark ∉ encoder.encode text := by
  intro mem
  obtain ⟨byte, -, mem⟩ := List.mem_flatMap.mp mem
  exact notMem_encodeByte encoder separates byte mem

theorem ampersand_notMem_pair (entry : String × String) : ampersand ∉ encoder.pair entry := by
  rw [Encoder.pair, List.mem_append, List.mem_cons]
  rintro (name | same | value)
  · exact notMem_encode encoder (Or.inl rfl) entry.1 name
  · exact absurd same (by decide)
  · exact notMem_encode encoder (Or.inl rfl) entry.2 value

end Bytes

variable (encoder : Encoder)

theorem decode_encode (text : String) : decode (encoder.encode text) = text := by
  rw [decode, Encoder.encode, percentDecode_encode, Utf8Lossy.decode_bytes]

theorem parsePair_pair (entry : String × String) : parsePair (encoder.pair entry) = entry := by
  have other : ∀ byte ∈ encoder.encode entry.1, decide (byte ≠ equals) = true := by
    intro byte mem
    refine decide_eq_true ?_
    rintro rfl
    exact notMem_encode encoder (Or.inr rfl) entry.1 mem
  have name : (encoder.pair entry).takeWhile (· ≠ equals) = encoder.encode entry.1 := by
    rw [Encoder.pair, List.takeWhile_append_of_pos other]
    simp
  have value : (encoder.pair entry).dropWhile (· ≠ equals) =
      equals :: encoder.encode entry.2 := by
    rw [Encoder.pair, List.dropWhile_append_of_pos other]
    simp
  rw [parsePair, name, value, List.tail_cons, decode_encode, decode_encode]

/-- **A query is read back.** -/
theorem parse_query (pairs : List (String × String)) : parse (encoder.query pairs) = pairs := by
  have pieces : ((encoder.query pairs).splitOn ampersand).filter (· ≠ []) =
      pairs.map encoder.pair := by
    cases pairs with
    | nil => rfl
    | cons entry pairs =>
        have split : (encoder.query (entry :: pairs)).splitOn ampersand =
            (entry :: pairs).map encoder.pair := by
          refine List.splitOn_intercalate _ (fun piece mem => ?_) (by simp)
          obtain ⟨entry, -, rfl⟩ := List.mem_map.mp mem
          exact ampersand_notMem_pair encoder entry
        rw [split, List.filter_eq_self]
        intro piece mem
        obtain ⟨entry, -, rfl⟩ := List.mem_map.mp mem
        simp [Encoder.pair]
  rw [parse, pieces, List.map_map]
  exact (List.map_congr_left fun entry _ => parsePair_pair encoder entry).trans (List.map_id' _)

end UrlEncoded

end TrustRouter
