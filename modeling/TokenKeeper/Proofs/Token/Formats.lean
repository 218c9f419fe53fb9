import TokenKeeper.Proofs.Json.Reader
import TokenKeeper.Proofs.Token.FormPairs

/-!
# One token in all formats

An issuer may write the fields of a token as a JSON object, with the lifetime a number or a text,
or as form pairs. All give the same token, or the same refusal of a lifetime that goes beyond the
calendar (`Token.formats_agree`): the texts may be any, the lifetime any whole number of 64 bits,
and the object may be spelled in any way and have more members.
-/

namespace TokenKeeper

theorem trimBlanks_eq_self {s : List Char} (h : ∀ c ∈ s, isBlank c = false) : trimBlanks s = s :=
  Pieces.trimmed_eq_self (fun c hc => h c (List.mem_of_mem_head? hc))
    fun c hc => h c (List.mem_of_mem_getLast? hc)

/-- When a token expires that lasts `n` seconds. One that lasts no time at all never does. -/
def Token.expiryAfter (n : Int) (now : Instant) : Except Error (Option Instant) :=
  if n ≤ 0 then .ok none
  else
    match now.checkedAdd? n with
    | some expiry => .ok (some expiry)
    | none => .error (.fetch (.lifetimeOutOfRange n))

/-- The token for the fields that an issuer sends. -/
def Token.issued (access type : String) (n : Int) (now : Instant) : Except Error Token :=
  (Token.expiryAfter n now).map fun expiry =>
    { accessToken := access, tokenType := if type = "" then "Bearer" else type, expiry }

/-- Fields with different names, the three of a token among them. -/
structure HasTokenFields {α : Type} (fields : List (String × α)) (access type lifetime : α) :
    Prop where
  nodup : (fields.map Prod.fst).Nodup
  access : ("access_token", access) ∈ fields
  type : ("token_type", type) ∈ fields
  lifetime : ("expires_in", lifetime) ∈ fields

/-- A content type under which fields are written as form pairs, with or without parameters. -/
def IsFormContentType (contentType : String) : Prop :=
  ∃ mime ∈ ["application/x-www-form-urlencoded", "text/plain"],
    contentType = mime ∨ ∃ parameters, contentType = mime ++ ";" ++ parameters

namespace TokenRecord

variable {access type contentType : String} {n : Int}

/-! ## Lifetimes -/

/-- A number that is written as a text is a lifetime. -/
theorem seconds?_ofInt (hn : Json.isInt64 n = true) :
    (Lifetime.text (Decimal.ofInt n)).seconds? = .ok (some n) := by
  have htrim : trimBlanks (Decimal.ofInt n).toList = (Decimal.ofInt n).toList := by
    refine trimBlanks_eq_self fun c hc => ?_
    rcases Decimal.mem_ofInt hc with rfl | hc
    · decide
    · simp only [Decimal.isDigit, Bool.and_eq_true, decide_eq_true_eq] at hc
      simp only [isBlank, Bool.or_eq_false_iff, Bool.and_eq_false_iff, decide_eq_false_iff_not,
        beq_eq_false_iff_ne]
      omega
  have hne : (Decimal.ofInt n).toList ≠ [] := by
    intro h
    have hread := Decimal.toInt?_ofInt n
    rw [h] at hread
    cases hread
  simp only [Lifetime.seconds?, htrim, if_neg hne, Decimal.toInt?_ofInt, if_pos hn]

theorem token_eq_issued {lifetime : Lifetime} (h : lifetime.seconds? = .ok (some n))
    (access type : String) (now : Instant) :
    (token ⟨access, some type, some lifetime⟩ now).mapError .fetch =
      Token.issued access type n now := by
  have htype : ((some type).filter (· ≠ "")).getD "Bearer" =
      if type = "" then "Bearer" else type := by
    by_cases hempty : type = "" <;> simp [hempty, Option.filter]
  simp only [token, h, htype, Token.issued, Token.expiryAfter]
  by_cases hn : n ≤ 0
  · have hfilter : (some n).filter (· > 0) = none := by simp [Option.filter, hn]
    rw [if_pos hn]
    simp only [bind, Except.bind, hfilter]
    rfl
  · have hfilter : (some n).filter (· > 0) = some n := by
      simp [Option.filter, Int.lt_of_not_ge hn]
    rw [if_neg hn]
    simp only [bind, Except.bind, hfilter]
    cases now.checkedAdd? n <;> rfl

/-! ## Form pairs -/

theorem isFormType_mediaType (h : IsFormContentType contentType) :
    isFormType (mediaType contentType) = true := by
  have hmime : ∀ mime ∈ ["application/x-www-form-urlencoded", "text/plain"],
      ';' ∉ mime.toList ∧ mime.toList.takeWhile (· != ';') = mime.toList ∧
        isFormType (mediaType mime) = true := by
    decide
  obtain ⟨mime, hmem, rfl | ⟨parameters, rfl⟩⟩ := h
  · exact (hmime _ hmem).2.2
  · obtain ⟨hmark, hwhole, hform⟩ := hmime mime hmem
    have hcut : (mime ++ ";" ++ parameters).toList.takeWhile (· != ';') = mime.toList := by
      rw [String.toList_append, String.toList_append, List.append_assoc]
      exact Pieces.takeWhile_append_cons hmark parameters.toList
    rw [mediaType, hcut, ← hwhole]
    exact hform

/-- Form pairs give the record. -/
theorem ofBody_form (h : IsFormContentType contentType) {pairs : List (String × String)}
    {lifetime : String} (hpairs : HasTokenFields pairs access type lifetime) :
    ofBody contentType (Form.encode pairs) = .ok ⟨access, some type, some (.text lifetime)⟩ := by
  rw [ofBody, if_pos (isFormType_mediaType h), Form.decode_encode, ofPairs_eq, ofLastValues,
    Form.lastValue?_of_mem hpairs.nodup hpairs.access,
    Form.lastValue?_of_mem hpairs.nodup hpairs.type,
    Form.lastValue?_of_mem hpairs.nodup hpairs.lifetime]
  rfl

/-! ## JSON -/

theorem text?_of_holds {v : Json} {s : String} (h : v.Holds (.text s)) : v.text? = some s := by
  cases h with
  | text h => rw [Json.text?, h]

theorem optionalText?_of_holds {v : Json} {s : String} (h : v.Holds (.text s)) :
    v.optionalText? = some (some s) := by
  have htext := text?_of_holds h
  cases h with
  | text _ => rw [Json.optionalText?, htext, Option.map_some]; exact fun h => nomatch h

/-- How long a token lasts that has the value for its lifetime. -/
def lifetimeOf : Json.Scalar → Lifetime
  | .text s => .text s
  | .whole n => .seconds n

theorem lifetimeOfJson?_eq_some {v : Json} {lifetime : Json.Scalar} (h : v.Holds lifetime)
    (hfits : ∀ n, lifetime = .whole n → Json.isInt64 n = true) :
    lifetimeOfJson? v = some (some (lifetimeOf lifetime)) := by
  cases h with
  | text h =>
    rw [lifetimeOfJson?, Json.text?, h]
    rfl
  | whole n =>
    rw [lifetimeOfJson?, Json.int64?_ofText_ofInt (hfits n rfl)]
    · rfl
    · exact fun h => nomatch h
    · exact fun raw h => nomatch h

/-- A JSON object gives the record. -/
theorem ofBody_json (h : isFormType (mediaType contentType) = false) {body : List UInt8}
    {members : List (String × Json.Scalar)} {lifetime : Json.Scalar}
    (hmembers : HasTokenFields members (.text access) (.text type) lifetime)
    (hfits : ∀ n, lifetime = .whole n → Json.isInt64 n = true)
    (hbody : Json.WritesObject members body) :
    ofBody contentType body = .ok ⟨access, some type, some (lifetimeOf lifetime)⟩ := by
  obtain ⟨ms, hread, hholds⟩ := Json.ofBytes?_of_writesObject hbody
  have hfields : List.Forall₂ (fun name v => (name, v) ∈ members) fieldNames
      [.text access, .text type, lifetime] :=
    -- in the order of the names of a record, which need not be that of the members
    .cons hmembers.access (.cons hmembers.type (.cons hmembers.lifetime .nil))
  obtain ⟨values, hrecord, hvalues⟩ := Json.record?_of_fields hholds hmembers.nodup hfields
  rcases hvalues with - | ⟨haccess, - | ⟨htype, - | ⟨hlifetime, ⟨⟩⟩⟩⟩
  have hjson : ofJson? (.object ms) = some ⟨access, some type, some (lifetimeOf lifetime)⟩ := by
    rw [ofJson?, hrecord]
    simp only [List.map_cons, List.map_nil, Option.bind_eq_bind, Option.bind_some,
      Option.map_some, Option.getD_some, text?_of_holds haccess, optionalText?_of_holds htype,
      lifetimeOfJson?_eq_some hlifetime hfits]
    rfl
  rw [ofBody, if_neg (by simp [h]), hread, Option.bind_some, hjson]

end TokenRecord

/-- **The formats agree.** Take any two texts and any whole number of 64 bits for the lifetime, and
any time at which the answer arrives. A JSON object with these fields gives the same result however
it is spelled, with the lifetime a number or a text, under any content type that is not one of
forms. Form pairs give this result too, with or without parameters in the content type. It is a
token with the given text, of the given type or else `Bearer`, unless its expiry is beyond the
calendar. -/
theorem Token.formats_agree (access type : String) {n : Int} (hn : Json.isInt64 n = true)
    (now : Instant) :
    (∀ contentType members body, ∀ lifetime ∈ [Json.Scalar.whole n, .text (Decimal.ofInt n)],
      TokenRecord.isFormType (TokenRecord.mediaType contentType) = false →
      HasTokenFields members (.text access) (.text type) lifetime →
      Json.WritesObject members body →
      Token.ofResponse contentType body now = Token.issued access type n now) ∧
    (∀ contentType pairs, IsFormContentType contentType →
      HasTokenFields pairs access type (Decimal.ofInt n) →
      Token.ofResponse contentType (Form.encode pairs) now = Token.issued access type n now) ∧
    ∀ token, Token.issued access type n now = .ok token →
      token.accessToken = access ∧ token.tokenType = if type = "" then "Bearer" else type := by
  refine ⟨?_, ?_, ?_⟩
  · intro contentType members body lifetime hlifetime hjson hmembers hbody
    have hseconds : (TokenRecord.lifetimeOf lifetime).seconds? = .ok (some n) ∧
        ∀ m, lifetime = .whole m → Json.isInt64 m = true := by
      rcases List.mem_pair.mp hlifetime with rfl | rfl
      · exact ⟨rfl, fun m h => (Json.Scalar.whole.inj h) ▸ hn⟩
      · exact ⟨TokenRecord.seconds?_ofInt hn, fun m h => nomatch h⟩
    obtain ⟨hseconds, hfits⟩ := hseconds
    rw [Token.ofResponse, TokenRecord.ofBody_json hjson hmembers hfits hbody]
    exact TokenRecord.token_eq_issued hseconds access type now
  · intro contentType pairs hform hpairs
    rw [Token.ofResponse, TokenRecord.ofBody_form hform hpairs]
    exact TokenRecord.token_eq_issued (TokenRecord.seconds?_ofInt hn) access type now
  · intro token htoken
    rw [Token.issued] at htoken
    cases hexpiry : Token.expiryAfter n now with
    | error e =>
      rw [hexpiry] at htoken
      cases htoken
    | ok expiry =>
      rw [hexpiry] at htoken
      obtain rfl := Except.ok.inj htoken
      exact ⟨rfl, rfl⟩

/-- A text beyond ASCII, with escapes in an object whose members are not in order, and in a form. -/
theorem Token.ofResponse_beyond_ascii :
    Token.ofResponse "application/json"
      (Utf8.ofText ("\x7b\"expires_in\":900, \"token_type\" : \"\"," ++
        "\"access_token\":\"\\u00FC\\ud83d\\uDE00&\"\x7d")) ⟨0⟩ =
      .ok { accessToken := "ü😀&", expiry := some ⟨900000000000⟩ } ∧
    Token.ofResponse "text/plain; charset=utf-8"
      (Utf8.ofText "access_token=%C3%BC%F0%9F%98%80%26&token_type=&expires_in=900") ⟨0⟩ =
      .ok { accessToken := "ü😀&", expiry := some ⟨900000000000⟩ } := by
  obtain ⟨hjson, hform, -⟩ := Token.formats_agree "ü😀&" "" (n := 900) (by decide) ⟨0⟩
  have hissued : Token.issued "ü😀&" "" 900 ⟨0⟩ =
      .ok { accessToken := "ü😀&", expiry := some ⟨900000000000⟩ } := by
    decide
  have hvalue : JsonText.Spells "ü😀&".toList "\\u00FC\\ud83d\\uDE00&".toList :=
    .cons (.unit
        (.cons (by decide) (.cons (by decide) (.cons (by decide) (.cons (by decide) .nil)))))
      (.cons (.halves (by decide)
        (.cons (by decide) (.cons (by decide) (.cons (by decide) (.cons (by decide) .nil))))
        (.cons (by decide) (.cons (by decide) (.cons (by decide) (.cons (by decide) .nil)))))
        (.cons (.plain (by decide) (by decide) (by decide)) .nil))
  have hname (name : String) := JsonText.spells_encode name.toList
  have hnone : Json.IsBlanks [] := by decide
  have hspace : Json.IsBlanks [0x20] := by decide
  have hbody : Json.WritesObject [("expires_in", .whole 900), ("token_type", .text ""),
      ("access_token", .text "ü😀&")] _ :=
    .intro hnone hnone
      (.cons (.intro hnone hnone hnone hnone (hname "expires_in") (.whole 900))
        (.cons (.intro hspace hspace hspace hnone (hname "token_type") (.text (hname "")))
          (.last (.intro hnone hnone hnone hnone (hname "access_token") (.text hvalue)))))
  have hpairs : Utf8.ofText "access_token=%C3%BC%F0%9F%98%80%26&token_type=&expires_in=900" =
      Form.encode [("access_token", "ü😀&"), ("token_type", ""), ("expires_in", "900")] := by
    decide +kernel
  constructor
  · rw [← hissued]
    refine hjson _ _ _ (.whole 900) (by decide) (by decide)
      ⟨by decide, by decide, by decide, by decide⟩ ((congrArg (Json.WritesObject _) ?_).mp hbody)
    decide +kernel
  · rw [hpairs, ← hissued]
    exact hform _ _ ⟨"text/plain", by decide, .inr ⟨" charset=utf-8", by decide⟩⟩
      ⟨by decide, by decide, by decide, by decide +kernel⟩

/-- A lifetime that fits 64 bits may still go beyond the calendar. -/
example : Token.issued "a" "" 0x7FFFFFFFFFFFFFFF ⟨0⟩ =
    .error (.fetch (.lifetimeOutOfRange 0x7FFFFFFFFFFFFFFF)) := by
  decide

end TokenKeeper
