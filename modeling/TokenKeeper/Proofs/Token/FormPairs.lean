import TokenKeeper.Proofs.Text.Form
import TokenKeeper.Token.Response

/-!
# The last value counts

Form pairs are read one after the other, and a pair takes the place of what an earlier one of its
name has left. So all that matters of the pairs is the last value under each name of a field
(`TokenRecord.ofPairs_eq`): other names, the order of different names and earlier values under a
name make no difference, not even a lifetime that is no number (`Token.last_values_decide`).
-/

namespace TokenKeeper

/-! ## Pairs with the same last values -/

namespace Form

variable {names : List String} {before after : List (String × String)}

/-- Whether two lists of pairs have the same last value, or none, under each of some names. -/
def SameLastValues (names : List String) (pairs pairs' : List (String × String)) : Prop :=
  ∀ name ∈ names, lastValue? pairs name = lastValue? pairs' name

instance (names : List String) (pairs pairs' : List (String × String)) :
    Decidable (SameLastValues names pairs pairs') :=
  inferInstanceAs (Decidable (∀ name ∈ names, _))

/-- A pair of another name, or with one of its own name behind it, can be left out. -/
theorem sameLastValues_leave_out {pair : String × String}
    (h : pair.1 ∉ names ∨ pair.1 ∈ after.map Prod.fst) :
    SameLastValues names (before ++ pair :: after) (before ++ after) := by
  intro name hname
  rw [lastValue?_append, lastValue?_append, lastValue?_cons]
  by_cases hpair : pair.1 = name
  · -- the pair has the name, so there is another one behind it
    have hbehind : pair.1 ∈ after.map Prod.fst := h.resolve_left fun hnot => hnot (hpair ▸ hname)
    have hsome : lastValue? after name ≠ none := by
      rw [Ne, lastValue?_eq_none_iff, not_not, ← hpair]
      exact hbehind
    obtain ⟨value, hvalue⟩ := Option.ne_none_iff_exists'.mp hsome
    rw [hvalue, Option.some_or, Option.some_or]
  · rw [if_neg hpair, Option.or_none]

/-- Neighbours of different names can change places. -/
theorem sameLastValues_swap {pair pair' : String × String} (h : pair.1 ≠ pair'.1) :
    SameLastValues names (before ++ pair :: pair' :: after) (before ++ pair' :: pair :: after) := by
  intro name _
  simp only [lastValue?_append, lastValue?_cons]
  by_cases hpair : pair.1 = name
  · have hpair' : pair'.1 ≠ name := fun hsame => h (hpair.trans hsame.symm)
    rw [if_neg hpair', Option.or_none, Option.or_none]
  · rw [if_neg hpair, Option.or_none, Option.or_none]

end Form

/-! ## The record of the pairs -/

namespace TokenRecord

/-- The record of the last value under each name of a field. -/
def ofLastValues (pairs : List (String × String)) : TokenRecord :=
  { accessToken := (Form.lastValue? pairs "access_token").getD ""
    tokenType := Form.lastValue? pairs "token_type"
    expiresIn := (Form.lastValue? pairs "expires_in").map .text }

/-- A record in which the last values of pairs have taken the place of what was there. -/
def withLastValues (r : TokenRecord) (pairs : List (String × String)) : TokenRecord :=
  { accessToken := (Form.lastValue? pairs "access_token").getD r.accessToken
    tokenType := (Form.lastValue? pairs "token_type").or r.tokenType
    expiresIn := ((Form.lastValue? pairs "expires_in").map .text).or r.expiresIn }

/-- The values of one pair are its last ones. -/
theorem withPair_eq (r : TokenRecord) (pair : String × String) :
    r.withPair pair = r.withLastValues [pair] := by
  simp only [withLastValues, Form.lastValue?_singleton]
  rw [withPair]
  split <;> simp_all

/-- The values of later pairs take the place of those of earlier ones. -/
theorem withLastValues_append (r : TokenRecord) (before after : List (String × String)) :
    r.withLastValues (before ++ after) = (r.withLastValues before).withLastValues after := by
  simp only [withLastValues, Form.lastValue?_append, Option.getD_or, Option.or_assoc, Option.map_or]

/-- Reading pairs puts their last values into the record, whatever it held before. -/
theorem foldl_withPair (r : TokenRecord) (pairs : List (String × String)) :
    pairs.foldl withPair r = r.withLastValues pairs := by
  induction pairs generalizing r with
  | nil => rfl
  | cons pair rest ih =>
    rw [List.foldl_cons, ih, withPair_eq, ← withLastValues_append, List.singleton_append]

/-- **Pairs give the record of their last values.** -/
theorem ofPairs_eq (pairs : List (String × String)) : ofPairs pairs = ofLastValues pairs := by
  rw [ofPairs, foldl_withPair, withLastValues, ofLastValues, empty]
  simp only [Option.or_none]

theorem ofLastValues_congr {pairs pairs' : List (String × String)}
    (h : Form.SameLastValues fieldNames pairs pairs') :
    ofLastValues pairs = ofLastValues pairs' := by
  rw [ofLastValues, ofLastValues, h "access_token" (by decide), h "token_type" (by decide),
    h "expires_in" (by decide)]

end TokenRecord

open TokenRecord in
/-- A form gives the token of the last values. -/
theorem Token.ofResponse_form {contentType : String}
    (hform : isFormType (mediaType contentType) = true) (body : List UInt8) (now : Instant) :
    Token.ofResponse contentType body now =
      ((ofLastValues (Form.decode body)).token now).mapError .fetch := by
  rw [Token.ofResponse, ofBody, if_pos hform, ofPairs_eq]

open TokenRecord in
/-- **The last values decide.** A body gives the token, or the error, of the last value under each
name of a field, if its content type is one of forms. So two bodies give the same at the same time
if their pairs have the same last values, and in particular if they differ in

* a pair of another name, or one with a pair of its own name behind it, whatever its value, or
* the order of two neighbours of different names. -/
theorem Token.last_values_decide {contentType contentType' : String}
    (hform : isFormType (mediaType contentType) = true)
    (hform' : isFormType (mediaType contentType') = true) (now : Instant) :
    (∀ body, Token.ofResponse contentType body now =
      ((ofLastValues (Form.decode body)).token now).mapError .fetch) ∧
    (∀ body body', Form.SameLastValues fieldNames (Form.decode body) (Form.decode body') →
      Token.ofResponse contentType body now = Token.ofResponse contentType' body' now) ∧
    (∀ body body' before pair after, Form.decode body = before ++ pair :: after →
      Form.decode body' = before ++ after →
      pair.1 ∉ fieldNames ∨ pair.1 ∈ after.map Prod.fst →
      Token.ofResponse contentType body now = Token.ofResponse contentType' body' now) ∧
    ∀ body body' before pair pair' after, Form.decode body = before ++ pair :: pair' :: after →
      Form.decode body' = before ++ pair' :: pair :: after → pair.1 ≠ pair'.1 →
      Token.ofResponse contentType body now = Token.ofResponse contentType' body' now := by
  have hsame (body body' : List UInt8)
      (h : Form.SameLastValues fieldNames (Form.decode body) (Form.decode body')) :
      Token.ofResponse contentType body now = Token.ofResponse contentType' body' now := by
    rw [ofResponse_form hform, ofResponse_form hform', ofLastValues_congr h]
  refine ⟨fun body => ofResponse_form hform body now, hsame, ?_, ?_⟩
  · intro body body' before pair after hbody hbody' hpair
    refine hsame body body' ?_
    rw [hbody, hbody']
    exact Form.sameLastValues_leave_out hpair
  · intro body body' before pair pair' after hbody hbody' hne
    refine hsame body body' ?_
    rw [hbody, hbody']
    exact Form.sameLastValues_swap hne

/-- A lifetime that is no number is forgotten, as is an earlier token, once others come behind. -/
theorem Token.last_values_decide_after_bad_lifetime :
    let form := "application/x-www-form-urlencoded"
    let plain := " text/plain ; charset=utf-8"
    let body := Utf8.ofText "expires_in=soon&access_token=old&x=%00&access_token=t&expires_in=60"
    let token : Token := { accessToken := "t", expiry := some ⟨60000000000⟩ }
    Token.ofResponse form body ⟨0⟩ = .ok token ∧
    Token.ofResponse plain (Utf8.ofText "expires_in=60&access_token=t") ⟨0⟩ = .ok token ∧
    Token.ofResponse plain
      (Utf8.ofText "access_token=old&x=%00&access_token=t&expires_in=60") ⟨0⟩ = .ok token ∧
    Token.ofResponse plain
      (Utf8.ofText "access_token=old&expires_in=soon&x=%00&access_token=t&expires_in=60") ⟨0⟩ =
        .ok token := by
  intro form plain body token
  obtain ⟨hlast, hsame, hleave, hswap⟩ :=
    last_values_decide (show TokenRecord.isFormType (TokenRecord.mediaType form) = true by decide)
      (show TokenRecord.isFormType (TokenRecord.mediaType plain) = true by decide) ⟨0⟩
  have hpairs : Form.decode body = [("expires_in", "soon"), ("access_token", "old"),
      ("x", "\x00"), ("access_token", "t"), ("expires_in", "60")] := by
    decide +kernel
  have htoken : Token.ofResponse form body ⟨0⟩ = .ok token := by
    rw [hlast, hpairs]
    decide +kernel
  refine ⟨htoken, ?_, ?_, ?_⟩
  · rw [← htoken]
    exact (hsame _ _ (by decide +kernel)).symm
  · rw [← htoken]
    exact (hleave _ _ [] ("expires_in", "soon") _ hpairs (by decide +kernel) (by decide)).symm
  · rw [← htoken]
    exact (hswap _ _ [] ("expires_in", "soon") _ _ hpairs (by decide +kernel) (by decide)).symm

end TokenKeeper
