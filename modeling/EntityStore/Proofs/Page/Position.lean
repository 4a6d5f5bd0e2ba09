import EntityStore.Page.Position
import EntityStore.Proofs.Base64Url
import EntityStore.Proofs.Json.ReadBack

/-! # Positions read back

A position survives the way through its token: the record is found in the JSON object that
was written, the object in its bytes, and the bytes in the token.  Every other text is an
invalid cursor, or spells the bytes of a payload in the one way there is.

* `Position.decode_encode`     a token gives back the position it was made for
* `Position.decodeFor_encode`  for the kind of the position, so does the checked reader
* `Position.decode_cases`      a token is refused as a cursor, or carries a payload
* `Position.codec_exact`       tokens are lossless, safe in a URL, bound to a kind and canonical -/

namespace EntityStore

namespace Position

/-- The JSON form of a position says that position. -/
private theorem ofText?_toText (p : Position) : ofText? p.toJson.toText = some p := by
  obtain ⟨kind, nextId⟩ := p
  have hkey (s : String) := StringLiteral.toString?_ofString s
  have hk : (["k", "at"].idxOf? "k") = some 0 := by decide
  have hat : (["k", "at"].idxOf? "at") = some 1 := by decide
  -- the member for the id is null at the end, and a string elsewhere
  cases nextId with
  | none =>
    simp [ofText?, toJson, Json.ofString?, Json.toText, Json.toMembers, RecordText.read?,
      RecordText.assign?, RecordText.field?, hkey, hk, hat, JsonText.string?, JsonText.optional?]
  | some id =>
    simp [ofText?, toJson, Json.ofString?, Json.toText, Json.toMembers, RecordText.read?,
      RecordText.assign?, RecordText.field?, hkey, hk, hat, JsonText.string?, JsonText.optional?]

/-- A token gives back the position it was made for. -/
theorem decode_encode (p : Position) : decode p.encode = .ok p := by
  simp only [decode, encode, Base64Url.decode_encode, Json.parse?_render, ofText?_toText,
    Option.bind_eq_bind, Option.bind_some]

/-- The token of a position is accepted for the kind of the position. -/
theorem decodeFor_encode (p : Position) : decodeFor p.encode p.kind = .ok p := by
  rw [decodeFor, decode_encode]
  simp only [bind, Except.bind, if_true]
  rfl

/-- Distinct positions have distinct tokens. -/
theorem encode_injective {p q : Position} (h : p.encode = q.encode) : p = q := by
  have hq := decode_encode q
  rw [← h, decode_encode] at hq
  exact Except.ok.inj hq

/-- A token is refused for any kind but its own. -/
theorem decodeFor_encode_of_ne {p : Position} {kind : String} (h : p.kind ≠ kind) :
    decodeFor p.encode kind =
      .error (.invalidCursor s!"cursor belongs to kind '{p.kind}', not '{kind}'") := by
  rw [decodeFor, decode_encode]
  simp only [bind, Except.bind, if_neg h]
  rfl

/-- A token is refused as a cursor, or it is base64url of a payload that spells a position. -/
theorem decode_cases (token : Cursor) :
    (∃ reason, decode token = .error (.invalidCursor reason)) ∨
      ∃ payload p, Base64Url.decode token.token = .ok payload ∧
        JsonText.parse? payload >>= ofText? = some p ∧ decode token = .ok p := by
  rw [decode]
  cases hpayload : Base64Url.decode token.token with
  | error fault => exact .inl ⟨_, rfl⟩
  | ok payload =>
    cases hp : JsonText.parse? payload >>= ofText? with
    | none => exact .inl ⟨"malformed payload", by simp only [hp]⟩
    | some p => exact .inr ⟨payload, p, rfl, hp, by simp only [hp]⟩

/-- The tokens of positions are lossless, safe in a URL, and bound to their kinds.  A token that
    is read is the one spelling of its payload, and any other text is an invalid cursor. -/
theorem codec_exact (p : Position) (kind : String) (token : Cursor) :
    decode p.encode = .ok p ∧
      (∀ q : Position, q.encode = p.encode → q = p) ∧
      (∀ c ∈ p.encode.token.toList, c.isAlphanum = true ∨ c = '-' ∨ c = '_') ∧
      Base64Url.Spells p.encode.token p.toJson.render ∧
      decodeFor p.encode kind = (if p.kind = kind then .ok p
        else .error (.invalidCursor s!"cursor belongs to kind '{p.kind}', not '{kind}'")) ∧
      (∀ q, decode token = .ok q → ∃ payload, Base64Url.decode token.token = .ok payload ∧
        JsonText.parse? payload >>= ofText? = some q ∧
        token.token = Base64Url.encode payload ∧ Base64Url.Spells token.token payload) ∧
      ∀ e, decode token = .error e → ∃ reason, e = .invalidCursor reason := by
  refine ⟨decode_encode p, fun q => encode_injective,
    fun c hc => Base64Url.urlSafe_of_mem_encode hc, Base64Url.spells_encode _, ?_,
    fun q hq => ?_, fun e he => ?_⟩
  · -- the kind of the position decides
    split
    · next h => exact h ▸ decodeFor_encode p
    · next h => exact decodeFor_encode_of_ne h
  · -- a token that is read is one that could have been written
    rcases decode_cases token with ⟨reason, herror⟩ | ⟨payload, q', hpayload, hq', hok⟩
    · cases hq.symm.trans herror
    · obtain rfl := Except.ok.inj (hq.symm.trans hok)
      have htoken := Base64Url.encode_of_decode hpayload
      exact ⟨payload, hpayload, hq', htoken.symm, htoken ▸ Base64Url.spells_encode payload⟩
  · rcases decode_cases token with ⟨reason, herror⟩ | ⟨payload, q, -, -, hok⟩
    · exact ⟨reason, Except.error.inj (he.symm.trans herror)⟩
    · cases he.symm.trans hok

/-- A kind and an id with signs that JSON escapes, and with letters beyond ASCII. -/
def escaped : Position := ⟨"Ké\"y\\😀\n", some "\u0001?"⟩

/-- A position whose names need escapes, and its token with padding behind it. -/
theorem codec_exact_escaped :
    escaped.encode = ⟨"eyJhdCI6Ilx1MDAwMT8iLCJrIjoiS8OpXCJ5XFzwn5iAXG4ifQ"⟩ ∧
      decode escaped.encode = .ok escaped ∧
      (∃ payload, Base64Url.Spells escaped.encode.token payload ∧
        JsonText.parse? payload >>= ofText? = some escaped) ∧
      ∃ reason, decode ⟨escaped.encode.token ++ "=="⟩ = .error (.invalidCursor reason) := by
  have hcodec := codec_exact escaped escaped.kind escaped.encode
  obtain ⟨payload, -, hpayload, -, hspells⟩ := hcodec.2.2.2.2.2.1 escaped hcodec.1
  -- the same token with padding is none
  have hpadded := (codec_exact escaped escaped.kind ⟨escaped.encode.token ++ "=="⟩).2.2.2.2.2.2
  refine ⟨by decide +kernel, hcodec.1, ⟨payload, hspells, hpayload⟩, ?_⟩
  cases hdecode : decode ⟨escaped.encode.token ++ "=="⟩ with
  | error e =>
    obtain ⟨reason, rfl⟩ := hpadded e hdecode
    exact ⟨reason, rfl⟩
  | ok q =>
    have hfalse : (decode ⟨escaped.encode.token ++ "=="⟩).isOk = false := by decide +kernel
    rw [hdecode] at hfalse
    cases hfalse

end Position

end EntityStore
