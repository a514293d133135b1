import TrustRouter.Refusals
import TrustRouter.SidecarConfig

/-!
# Keys that open nothing

A key is looked at twice.  Start-up refuses control characters and says that what is left
is printable; at the door only what `HeaderValue::to_str` gives a text for is compared, and
that is visible ASCII.  Between the two are the keys with a character outside ASCII: they
are configured, no header is ever equal to them, and every client is locked out
(`not_opensForItself`).  They are the only ones (`opensForItself_iff`).
-/

namespace TrustRouter

/-! ## Bytes of a text -/

/-- Below `0x80` a byte is a whole character. -/
theorem toNat_of_mem_utf8EncodeChar {c : Char} {byte : UInt8}
    (mem : byte ∈ String.utf8EncodeChar c) (ascii : byte < 128) : c.toNat = byte.toNat := by
  have small : byte.toNat < 128 := UInt8.lt_iff_toNat_lt.mp ascii
  unfold String.utf8EncodeChar at mem
  extract_lets code at mem
  have value : c.toNat = code := rfl
  split_ifs at mem with one two three
  · rw [List.mem_singleton.mp mem, UInt8.toNat_ofNat', value]
    omega
  -- every byte of a longer encoding has its highest bit set
  all_goals
    simp only [List.mem_cons, List.not_mem_nil, or_false] at mem
    rcases mem with rfl | rfl | rfl | rfl
    all_goals
      simp only [UInt8.toNat_ofNat'] at small
      omega

theorem mem_asBytes {text : String} {byte : UInt8} :
    byte ∈ asBytes text ↔ ∃ c ∈ text.toList, byte ∈ String.utf8EncodeChar c := by
  have bytes : asBytes text = text.toList.flatMap String.utf8EncodeChar := by
    unfold asBytes
    rw [String.toUTF8_eq_toByteArray, ← String.utf8Encode_toList]
    simp [List.utf8Encode]
  rw [bytes, List.mem_flatMap]

/-! ## The key at the door -/

/-- The key is authorised by its own bytes, and by nothing else. -/
def OpensForItself [HeaderText] (key : String) : Prop :=
  ∀ (headers : HeaderMap) (value : List UInt8), headers.lookup "x-api-key" = some value →
    requireApiKey headers key = if value = asBytes key then .ok () else .error .unauthorized

theorem requireApiKey_self [HeaderText] {headers : HeaderMap} {key : String}
    (given : headers.lookup "x-api-key" = some (asBytes key)) :
    requireApiKey headers key =
      if (HeaderText.toStr (asBytes key)).isSome then .ok () else .error .unauthorized := by
  unfold requireApiKey
  rw [given, Option.bind_some]
  cases text : HeaderText.toStr (asBytes key) with
  | none => rfl
  | some actual =>
      have bytes := HeaderText.asBytes_of_toStr _ actual text
      have same : constantTimeEq (asBytes actual) (asBytes key) = true :=
        constantTimeEq_iff.mpr bytes
      simp [same]

/-- What a key opens is decided by whether its own bytes are read as a text. -/
theorem opensForItself_iff_isSome [HeaderText] {key : String} :
    OpensForItself key ↔ (HeaderText.toStr (asBytes key)).isSome = true := by
  constructor
  · intro opens
    have self := opens [("x-api-key", asBytes key)] (asBytes key) rfl
    rw [requireApiKey_self rfl, if_pos rfl] at self
    by_contra notText
    rw [if_neg notText] at self
    cases self
  · intro isText headers value given
    by_cases same : value = asBytes key
    · rw [if_pos same, requireApiKey_self (same ▸ given), if_pos isText]
    · rw [if_neg same]
      exact requireApiKey_of_ne fun other => same (Option.some.inj (given.symm.trans other))

/-- The bytes of a text are those of a text, so all that `to_str` asks is that they are
visible. -/
theorem isSome_visibleAscii {key : String} :
    (HeaderText.visibleAscii.toStr (asBytes key)).isSome = true ↔
      ∀ byte ∈ asBytes key, byte = 9 ∨ 32 ≤ byte ∧ byte < 127 := by
  have valid : String.fromUTF8? ⟨(asBytes key).toArray⟩ = some key := by
    have bytes : (⟨(asBytes key).toArray⟩ : ByteArray) = key.toByteArray := rfl
    rw [bytes]
    unfold String.fromUTF8?
    rw [dif_pos key.isValidUTF8]
    rfl
  have text : HeaderText.visibleAscii.toStr (asBytes key) =
      if (asBytes key).all fun byte => byte = 9 || (32 ≤ byte && byte < 127) then
        String.fromUTF8? ⟨(asBytes key).toArray⟩
      else none := rfl
  rw [text]
  split_ifs with visible
  · simpa [valid] using visible
  · simpa using visible

/-- A key that start-up accepts has no control character in it. -/
theorem SidecarConfig.validateApiKey_printable {mode : DeploymentMode} {key : String}
    (accepted : validateApiKey mode key = .ok ()) :
    ∀ c ∈ key.toList, isAsciiControl c = false := by
  intro c mem
  unfold validateApiKey at accepted
  split_ifs at accepted with empty control
  simp only [Bool.or_eq_true, not_or, List.any_eq_true, not_exists, not_and] at control
  exact Bool.eq_false_of_not_eq_true (control.2 c mem)

/-- A key that start-up accepts can be used exactly when it is written in ASCII. -/
theorem opensForItself_iff {mode : DeploymentMode} {key : String}
    (accepted : SidecarConfig.validateApiKey mode key = .ok ()) :
    let _ := HeaderText.visibleAscii
    OpensForItself key ↔ ∀ byte ∈ asBytes key, byte < 128 := by
  intro _
  rw [opensForItself_iff_isSome, isSome_visibleAscii]
  constructor
  · intro visible byte mem
    have range := visible byte mem
    grind
  · intro ascii byte mem
    obtain ⟨c, inKey, encoded⟩ := mem_asBytes.mp mem
    have code := toNat_of_mem_utf8EncodeChar encoded (ascii byte mem)
    have printable := SidecarConfig.validateApiKey_printable accepted c inKey
    simp only [SidecarConfig.isAsciiControl, code, Bool.or_eq_false_iff,
      decide_eq_false_iff_not] at printable
    have small : byte.toNat < 128 := UInt8.lt_iff_toNat_lt.mp (ascii byte mem)
    refine Or.inr ⟨UInt8.le_iff_toNat_le.mpr ?_, UInt8.lt_iff_toNat_lt.mpr ?_⟩
    · show 32 ≤ byte.toNat
      omega
    · show byte.toNat < 127
      omega

theorem opensForItself_iff_demo :
    SidecarConfig.validateApiKey .development SidecarConfig.defaultDemoApiKey = .ok () ∧
      (let _ := HeaderText.visibleAscii
       OpensForItself SidecarConfig.defaultDemoApiKey ↔
         ∀ byte ∈ asBytes SidecarConfig.defaultDemoApiKey, byte < 128) :=
  have accepted : SidecarConfig.validateApiKey .development SidecarConfig.defaultDemoApiKey =
      .ok () := by decide
  ⟨accepted, opensForItself_iff accepted⟩

/-- An accent is printable, and locks every client out. -/
theorem not_opensForItself :
    ¬ ∀ (mode : DeploymentMode) (key : String), SidecarConfig.validateApiKey mode key = .ok () →
      let _ := HeaderText.visibleAscii
      OpensForItself key := by
  intro opens
  let _ := HeaderText.visibleAscii
  have opens : OpensForItself "clé" := opens .development "clé" (by decide)
  have visible := isSome_visibleAscii.mp (opensForItself_iff_isSome.mp opens)
  have encoded : asBytes "clé" = [99, 108, 195, 169] := rfl
  exact absurd (visible 195 (encoded ▸ by decide)) (by decide)

end TrustRouter
