import TrustRouter.Endpoints
import TrustRouter.Prelude.UrlEncoded
import TrustRouter.SidecarConfig

/-!
# HTTP libraries

The clients of the SDK send their requests by `requests` or `fetch`, and the sidecar takes them by
`axum`.  None of these is part of the repository.  `HttpLibrary` and `Axum` are what is relied on:
a query is in the form encoding, and is read back as the pairs that are in it, and a flag and a
number in it are read as what they are the texts of.

Not every key can be sent in a header, and those that can are not always sent as their UTF-8 form.
So which bytes a key is sent as, and whether it is at all, is left to the library.
-/

namespace TrustRouter

open UrlEncoded

inductive HttpMethod where
  | get
  | post
  deriving DecidableEq

/-- A request without a body. -/
structure HttpRequest where
  method : HttpMethod
  path : String
  query : List UInt8
  headers : HeaderMap

/-- What a client gets to see of a response. -/
structure WireResponse where
  status : ℕ
  text : List Char

/-! ## What is relied on -/

/-- What a client has of its HTTP library. -/
structure HttpLibrary where
  /-- The query of an URL with some parameters. -/
  query : List (String × String) → List UInt8
  /-- The bytes of the value of a header.  Where there are none, the library raises. -/
  headerValue : String → Option (List UInt8)
  /-- Libraries differ in what they write as it is. -/
  urlEncoded : ∃ encoder : Encoder, ∀ params, query params = encoder.query params

/-- What the sidecar has of `axum`. -/
class Axum where
  /-- The pairs of a query. -/
  pairs : List UInt8 → List (String × String)
  bool : String → Option Bool
  u64 : String → Option ℕ
  /-- The answer to a request that no handler takes. -/
  refusal : HttpRequest → WireResponse
  pairs_query : ∀ (encoder : Encoder) params, pairs (encoder.query params) = params
  bool_toString : ∀ flag : Bool, bool (toString flag) = some flag
  u64_toString : ∀ n < 2 ^ 64, u64 (toString n) = some n

theorem HttpLibrary.pairs_query [Axum] (library : HttpLibrary) (params : List (String × String)) :
    Axum.pairs (library.query params) = params := by
  obtain ⟨encoder, encodes⟩ := library.urlEncoded
  rw [encodes, Axum.pairs_query]

/-! ## Such libraries -/

/-- One byte for each character, as long as there are such bytes. -/
def latin1 (text : String) : Option (List UInt8) :=
  if text.toList.all (·.toNat < 256) then some (text.toList.map fun c => .ofNat c.toNat) else none

namespace HttpLibrary

/-- `requests` of Python, for keys without blanks and control characters. -/
def requests : HttpLibrary := ⟨Encoder.quotePlus.query, latin1, _, fun _ => rfl⟩

/-- `URLSearchParams` and `fetch` of JavaScript, for such keys. -/
def fetch : HttpLibrary := ⟨Encoder.urlSearchParams.query, latin1, _, fun _ => rfl⟩

end HttpLibrary

theorem parseUnsigned_toString {n bound : ℕ} (small : n < bound) :
    parseUnsigned bound (toString n) = some n := by
  have text : (toString n).toList = Nat.toDigits 10 n := Nat.toList_repr
  have digits : ∀ c ∈ Nat.toDigits 10 n, c.isDigit = true := fun c mem =>
    Nat.isDigit_of_mem_toDigits (by decide) (by decide) mem
  have value : decimal (Nat.toDigits 10 n) = n := Nat.ofDigitChars_ten_toDigits
  unfold parseUnsigned
  rw [text]
  cases all : Nat.toDigits 10 n with
  | nil => exact absurd all Nat.toDigits_ne_nil
  | cons c rest =>
      rw [all] at digits value
      have noSign : c ≠ '+' := by
        rintro rfl
        exact absurd (digits '+' (.head _)) (by decide)
      have isDigits : (c :: rest).all Char.isDigit = true := List.all_eq_true.mpr digits
      split
      · exact absurd (List.cons.inj ‹_›).1 noSign
      · dsimp only
        rw [isDigits, value]
        simp [small]

def parseBool (text : String) : Option Bool :=
  if text = "true" then some true else if text = "false" then some false else none

/-- A query is read as the form encoding, and what is in it by `str::parse`. -/
@[reducible] def Axum.formUrlEncoded [Utf8Lossy] : Axum where
  pairs := parse
  bool := parseBool
  u64 := parseUnsigned (2 ^ 64)
  refusal _ := ⟨400, []⟩
  pairs_query := parse_query
  bool_toString flag := by cases flag <;> rfl
  u64_toString _ small := parseUnsigned_toString small

end TrustRouter
