import TokenKeeper.Proofs.Token.FormPairs

/-!
# How long a token lasts

An issuer may write anything for the time that a token lasts: no field, `null`, a number or a text,
of any size and sign. What comes of it is either a token or an error of the exchange, and the token
expires exactly the given number of seconds after it arrived, or never if no positive number is
given (`expiry_of_ofResponse`). The calendar ends, and a lifetime that leads beyond its end is an
error. So a token that arrives is of use on arrival exactly if it is not empty.

What is written is told apart from what is made of it: `SaysLifetime` is about the bytes of a body,
`IsSeconds` about what a number or a text stands for, and `CanAdd` about the calendar.
-/

namespace TokenKeeper

/-! ## The end of the calendar -/

namespace Instant

variable {now later : Instant} {n : Int}

/-- Whether an instant is in the calendar. -/
structure IsInCalendar (i : Instant) : Prop where
  earliest_le : earliest ≤ i
  le_latest : i ≤ latest

/-- Whether there is an instant some seconds later: they are not too many for a difference of
instants, and do not lead beyond the last instant of the calendar. -/
structure CanAdd (i : Instant) (secs : Int) : Prop where
  le_maxShift : secs ≤ maxShift
  le_latest : i.nanos + secs * nanosPerSecond ≤ latest.nanos

/-- From an instant in the calendar one comes to a later one, unless the calendar ends before. -/
theorem checkedAdd?_eq_some_iff (hnow : now.IsInCalendar) (hn : 0 < n) :
    now.checkedAdd? n = some later ↔
      now.CanAdd n ∧ later.nanos = now.nanos + n * nanosPerSecond := by
  have hfirst : earliest.nanos ≤ now.nanos := hnow.earliest_le
  have hadded : 0 < n * (nanosPerSecond : Int) := Int.mul_pos hn (by decide)
  have hshift : -maxShift ≤ n := by
    have : (0 : Int) ≤ maxShift := by decide
    omega
  rw [checkedAdd?]
  simp only [le_iff]
  constructor
  · intro h
    split at h
    · rename_i hrange
      split at h
      · rename_i hlater
        cases h
        exact ⟨⟨hrange.2, hlater.2⟩, rfl⟩
      · cases h
    · cases h
  · intro h
    obtain ⟨⟨hmax, hlast⟩, hlater⟩ := h
    rw [if_pos ⟨hshift, hmax⟩, if_pos ⟨by omega, hlast⟩, ← hlater]

end Instant

/-! ## What a lifetime comes to -/

theorem trimBlanks_eq_nil_iff {s : List Char} : trimBlanks s = [] ↔ s.all isBlank = true := by
  rw [trimBlanks, Pieces.trimmed_eq_nil_iff, List.all_eq_true]

namespace Lifetime

variable {l : Lifetime} {m n : Int}

/-- Whether a lifetime is a text of blanks, or the empty one. -/
def IsBlank : Lifetime → Prop
  | seconds _ => False
  | text s => isBlankText s = true

/-- Whether a lifetime stands for a number of seconds: a number for itself, a text with blanks
around it for the number of 64 bits that is written there. -/
inductive IsSeconds : Lifetime → Int → Prop where
  | seconds (n : Int) : IsSeconds (.seconds n) n
  | text {s : String} {n : Int} (digits : Decimal.toInt? (trimBlanks s.toList) = some n)
    (fits : Json.isInt64 n = true) : IsSeconds (.text s) n

theorem IsSeconds.unique (hm : l.IsSeconds m) (hn : l.IsSeconds n) : m = n := by
  cases hm with
  | seconds => cases hn; rfl
  | text hm _ =>
    cases hn with
    | text hn _ => exact Option.some.inj (hm.symm.trans hn)

/-- A blank text stands for no number. -/
theorem IsSeconds.not_isBlank (h : l.IsSeconds n) : ¬ l.IsBlank := by
  cases h with
  | seconds => exact id
  | text h _ =>
    intro hblank
    rw [trimBlanks_eq_nil_iff.mpr hblank] at h
    cases h

/-- A lifetime is blank, stands for a number, or is a text of something else. -/
theorem seconds?_cases (l : Lifetime) :
    (l.IsBlank ∧ l.seconds? = .ok none) ∨
    (∃ n, l.IsSeconds n ∧ l.seconds? = .ok (some n)) ∨
    (¬ l.IsBlank ∧ (∀ n, ¬ l.IsSeconds n) ∧ ∃ fault, l.seconds? = .error fault) := by
  rcases l with n | s
  · exact .inr (.inl ⟨n, .seconds n, rfl⟩)
  · rw [seconds?]
    by_cases hblank : trimBlanks s.toList = []
    · exact .inl ⟨trimBlanks_eq_nil_iff.mp hblank, if_pos hblank⟩
    · have hnot : ¬ (text s).IsBlank := fun h => hblank (trimBlanks_eq_nil_iff.mpr h)
      refine .inr ?_
      simp only [if_neg hblank]
      rcases hread : Decimal.toInt? (trimBlanks s.toList) with - | n
      · refine .inr ⟨hnot, fun m hm => ?_, _, rfl⟩
        cases hm with
        | text hm _ => cases hread.symm.trans hm
      · rcases hfits : Json.isInt64 n with - | -
        · refine .inr ⟨hnot, fun m hm => ?_, .badLifetime s, by simp [hfits]⟩
          cases hm with
          | text hm hfits' =>
            cases hread.symm.trans hm
            cases hfits.symm.trans hfits'
        · exact .inl ⟨n, .text hread hfits, by simp [hfits]⟩

/-- Whether a lifetime, if there is one, sets no end: it is blank or not positive. -/
def IsEndless (l : Option Lifetime) : Prop :=
  ∀ lifetime ∈ l, lifetime.IsBlank ∨ ∃ n ≤ 0, lifetime.IsSeconds n

/-- Whether a lifetime is given and stands for a positive number of seconds. -/
def EndsAfter (l : Option Lifetime) (n : Int) : Prop :=
  0 < n ∧ ∃ lifetime ∈ l, lifetime.IsSeconds n

/-- The positive number of seconds that a lifetime stands for, if it does. -/
def positive? : Option Lifetime → Except FetchFault (Option Int)
  | none => .ok none
  | some l => l.seconds?.map fun seconds => seconds.filter (· > 0)

/-- A lifetime sets no end, or sets one, or is a text of something else. -/
theorem positive?_cases (l : Option Lifetime) :
    (IsEndless l ∧ positive? l = .ok none) ∨
    (∃ n, EndsAfter l n ∧ positive? l = .ok (some n)) ∨
    ((¬ IsEndless l ∧ ∀ n, ¬ EndsAfter l n) ∧ ∃ fault, positive? l = .error fault) := by
  rcases l with - | l
  · refine .inl ⟨?_, rfl⟩
    intro lifetime hmem
    cases hmem
  · have hendless : IsEndless (some l) ↔ l.IsBlank ∨ ∃ n ≤ 0, l.IsSeconds n := by
      simp [IsEndless]
    have hends : ∀ n, EndsAfter (some l) n ↔ 0 < n ∧ l.IsSeconds n := by
      simp [EndsAfter]
    rw [positive?]
    rcases l.seconds?_cases with ⟨hblank, hseconds⟩ | ⟨n, hn, hseconds⟩ |
      ⟨hblank, hnone, fault, hseconds⟩
    · exact .inl ⟨hendless.mpr (.inl hblank), by rw [hseconds]; rfl⟩
    · by_cases hpos : 0 < n
      · refine .inr (.inl ⟨n, (hends n).mpr ⟨hpos, hn⟩, ?_⟩)
        rw [hseconds, Except.map, Option.filter_some, if_pos (decide_eq_true hpos)]
      · refine .inl ⟨hendless.mpr (.inr ⟨n, Int.not_lt.mp hpos, hn⟩), ?_⟩
        rw [hseconds, Except.map, Option.filter_some, if_neg (by simpa using hpos)]
    · refine .inr (.inr ⟨⟨fun h => ?_, fun n h => ?_⟩, fault, by rw [hseconds]; rfl⟩)
      · rcases hendless.mp h with h | ⟨n, -, h⟩
        · exact hblank h
        · exact hnone n h
      · exact hnone n ((hends n).mp h).2

/-- What sets an end is not endless. -/
theorem EndsAfter.not_isEndless {l : Option Lifetime} (h : EndsAfter l n) : ¬ IsEndless l := by
  obtain ⟨hpos, lifetime, hmem, hn⟩ := h
  intro hendless
  rcases hendless lifetime hmem with hblank | ⟨m, hm, hseconds⟩
  · exact hn.not_isBlank hblank
  · have hsame := hn.unique hseconds
    omega

theorem EndsAfter.unique {l : Option Lifetime} (hm : EndsAfter l m) (hn : EndsAfter l n) :
    m = n := by
  obtain ⟨-, lifetime, hmem, hm⟩ := hm
  obtain ⟨-, lifetime', hmem', hn⟩ := hn
  cases hmem.symm.trans hmem'
  exact hm.unique hn

end Lifetime

/-! ## What a body says -/

namespace TokenRecord

open Lifetime

variable {contentType : String} {body : List UInt8} {now : Instant} {record : TokenRecord}
  {n : Int}

/-- Whether the value of a field in JSON gives a lifetime. None is given if there is no field or
its value is `null`. -/
inductive GivesLifetime : Option Json → Option Lifetime → Prop where
  | absent : GivesLifetime none none
  | null : GivesLifetime (some .null) none
  | number {literal : List UInt8} {n : Int} (whole : (Json.number literal).int64? = some n) :
    GivesLifetime (some (.number literal)) (some (.seconds n))
  | text {raw : List UInt8} {s : String} (spells : JsonText.decode? raw = some s) :
    GivesLifetime (some (.string raw)) (some (.text s))

theorem givesLifetime_iff {field : Option Json} {l : Option Lifetime} :
    (field.map lifetimeOfJson?).getD (some none) = some l ↔ GivesLifetime field l := by
  constructor
  · intro h
    rcases field with - | v
    · cases h
      exact .absent
    · rw [Option.map_some, Option.getD_some] at h
      cases v with
      | null =>
        cases h
        exact .null
      | number literal =>
        obtain ⟨n, hn, hl⟩ := Option.map_eq_some_iff.mp h
        cases hl
        exact .number hn
      | string raw =>
        obtain ⟨s, hs, hl⟩ := Option.map_eq_some_iff.mp h
        cases hl
        exact .text hs
      | bool value => cases h
      | array items => cases h
      | object members => cases h
  · intro h
    cases h with
    | absent => rfl
    | null => rfl
    | number hn => simp [lifetimeOfJson?, hn]
    | text hs => simp [lifetimeOfJson?, Json.text?, hs]

/-- Whether a body gives a lifetime under a content type, or none. Of several in a form the last
one counts. -/
inductive SaysLifetime (contentType : String) (body : List UInt8) : Option Lifetime → Prop where
  | form (isForm : isFormType (mediaType contentType) = true) :
    SaysLifetime contentType body
      ((Form.lastValue? (Form.decode body) "expires_in").map .text)
  | json {v : Json} {access type field : Option Json} {l : Option Lifetime}
    (isJson : isFormType (mediaType contentType) = false) (reads : Json.ofBytes? body = some v)
    (fields : v.record? ["access_token", "token_type", "expires_in"] = some [access, type, field])
    (gives : GivesLifetime field l) : SaysLifetime contentType body l

/-- What a JSON value holds for the lifetime of a record. -/
theorem exists_of_ofJson? {v : Json} (h : ofJson? v = some record) :
    ∃ access type field, v.record? fieldNames = some [access, type, field] ∧
      GivesLifetime field record.expiresIn := by
  rw [ofJson?] at h
  obtain ⟨fields, hfields, h⟩ := Option.bind_eq_some_iff.mp h
  rcases fields with - | ⟨access, - | ⟨type, - | ⟨field, - | ⟨more, rest⟩⟩⟩⟩
  case cons.cons.cons.nil =>
    obtain ⟨a, -, h⟩ := Option.bind_eq_some_iff.mp h
    obtain ⟨t, -, h⟩ := Option.bind_eq_some_iff.mp h
    obtain ⟨l, hl, h⟩ := Option.bind_eq_some_iff.mp h
    cases h
    exact ⟨access, type, field, hfields, givesLifetime_iff.mp hl⟩
  all_goals cases h

/-- A record that was read from a body has the lifetime that the body gives. -/
theorem saysLifetime_of_ofBody (h : ofBody contentType body = .ok record) :
    SaysLifetime contentType body record.expiresIn := by
  rw [ofBody] at h
  split at h
  · rename_i hform
    cases h
    rw [ofPairs_eq]
    exact .form hform
  · rename_i hjson
    split at h
    · rename_i record' hread
      cases h
      obtain ⟨v, hv, hrecord⟩ := Option.bind_eq_some_iff.mp hread
      obtain ⟨access, type, field, hfields, hgives⟩ := exists_of_ofJson? hrecord
      exact .json (Bool.eq_false_iff.mpr hjson) hv hfields hgives
    · cases h

/-- A body gives one lifetime at most. -/
theorem GivesLifetime.unique {field : Option Json} {l l' : Option Lifetime}
    (h : GivesLifetime field l) (h' : GivesLifetime field l') : l = l' :=
  Option.some.inj ((givesLifetime_iff.mpr h).symm.trans (givesLifetime_iff.mpr h'))

theorem SaysLifetime.unique {l l' : Option Lifetime} (h : SaysLifetime contentType body l)
    (h' : SaysLifetime contentType body l') : l = l' := by
  cases h with
  | form hform =>
    cases h' with
    | form => rfl
    | json hjson => cases hform.symm.trans hjson
  | json hjson hv hfields hgives =>
    cases h' with
    | form hform => cases hform.symm.trans hjson
    | json _ hv' hfields' hgives' =>
      cases hv.symm.trans hv'
      cases hfields.symm.trans hfields'
      exact hgives.unique hgives'

/-! ## The token -/

/-- The token of a record with an expiry. -/
def tokenUntil (r : TokenRecord) (expiry : Option Instant) : Token :=
  { accessToken := r.accessToken
    tokenType := (r.tokenType.filter (· ≠ "")).getD "Bearer"
    expiry }

theorem token_eq (record : TokenRecord) (now : Instant) :
    record.token now =
      match positive? record.expiresIn with
      | .error fault => .error fault
      | .ok none => .ok (record.tokenUntil none)
      | .ok (some n) =>
        match now.checkedAdd? n with
        | none => .error (.lifetimeOutOfRange n)
        | some expiry => .ok (record.tokenUntil (some expiry)) := by
  rw [token]
  rcases record.expiresIn with - | l
  · rfl
  · simp only [positive?, bind, Except.bind]
    rcases l.seconds? with fault | seconds
    · rfl
    · simp only [Except.map]
      cases Option.filter (fun n => decide (n > 0)) seconds with
      | none => rfl
      | some n =>
        dsimp only
        cases now.checkedAdd? n <;> rfl

/-- **What comes of a record**: a token without an end, one that ends when its lifetime is over, or
an error, as its lifetime leads beyond the calendar or is no number. -/
theorem token_cases (record : TokenRecord) (hnow : now.IsInCalendar) :
    (IsEndless record.expiresIn ∧ record.token now = .ok (record.tokenUntil none)) ∨
    (∃ n expiry, (EndsAfter record.expiresIn n ∧ now.CanAdd n) ∧
      expiry.nanos = now.nanos + n * nanosPerSecond ∧
      record.token now = .ok (record.tokenUntil (some expiry))) ∨
    (∃ n, (EndsAfter record.expiresIn n ∧ ¬ now.CanAdd n) ∧
      record.token now = .error (.lifetimeOutOfRange n)) ∨
    ((¬ IsEndless record.expiresIn ∧ ∀ n, ¬ EndsAfter record.expiresIn n) ∧
      ∃ fault, record.token now = .error fault) := by
  rw [token_eq]
  rcases positive?_cases record.expiresIn with ⟨hendless, h⟩ | ⟨n, hends, h⟩ |
    ⟨hneither, fault, h⟩ <;> rw [h]
  · exact .inl ⟨hendless, rfl⟩
  · refine .inr ?_
    have hadd (later : Instant) : now.checkedAdd? n = some later ↔
        now.CanAdd n ∧ later.nanos = now.nanos + n * nanosPerSecond :=
      Instant.checkedAdd?_eq_some_iff hnow hends.1
    rcases hlater : now.checkedAdd? n with - | expiry
    · refine .inr (.inl ⟨n, ⟨hends, fun hcan => ?_⟩, by simp only [hlater]⟩)
      cases hlater.symm.trans ((hadd ⟨now.nanos + n * nanosPerSecond⟩).mpr ⟨hcan, rfl⟩)
    · obtain ⟨hcan, hexpiry⟩ := (hadd expiry).mp hlater
      exact .inl ⟨n, expiry, ⟨hends, hcan⟩, hexpiry, by simp only [hlater]⟩
  · exact .inr (.inr (.inr ⟨hneither, fault, rfl⟩))

/-- A record gives a token exactly if its lifetime sets no end or one that is in the calendar. -/
theorem exists_token_iff (record : TokenRecord) (hnow : now.IsInCalendar) :
    (∃ token, record.token now = .ok token) ↔
      IsEndless record.expiresIn ∨ ∃ n, EndsAfter record.expiresIn n ∧ now.CanAdd n := by
  rcases record.token_cases hnow with ⟨hendless, h⟩ | ⟨n, expiry, hends, -, h⟩ |
    ⟨n, ⟨hends, hcan⟩, h⟩ | ⟨⟨hendless, hnone⟩, fault, h⟩ <;> rw [h]
  · exact iff_of_true ⟨_, rfl⟩ (.inl hendless)
  · exact iff_of_true ⟨_, rfl⟩ (.inr ⟨n, hends⟩)
  · refine iff_of_false (by simp) fun hor => ?_
    rcases hor with hendless | ⟨m, hm, hcan'⟩
    · exact hends.not_isEndless hendless
    · exact hcan (hm.unique hends ▸ hcan')
  · refine iff_of_false (by simp) fun hor => ?_
    rcases hor with h | ⟨n, h, -⟩
    · exact hendless h
    · exact hnone n h

end TokenRecord

namespace Token

open Lifetime TokenRecord

variable {token : Token} {now : Instant} {l : Option Lifetime}

/-- Whether a token that arrived at an instant expires when a lifetime is over. -/
structure ExpiresAfter (token : Token) (now : Instant) (l : Option Lifetime) : Prop where
  none_iff : token.expiry = none ↔ IsEndless l
  some_iff : ∀ expiry, token.expiry = some expiry ↔
    ∃ n, EndsAfter l n ∧ expiry.nanos = now.nanos + n * nanosPerSecond
  later : ∀ expiry, token.expiry = some expiry → now < expiry ∧ expiry ≤ Instant.latest

theorem expiresAfter_tokenUntil_none {record : TokenRecord} (h : IsEndless l) :
    (record.tokenUntil none).ExpiresAfter now l where
  none_iff := iff_of_true rfl h
  some_iff := by
    intro expiry
    refine iff_of_false nofun fun hends => ?_
    obtain ⟨n, hends, -⟩ := hends
    exact hends.not_isEndless h
  later := nofun

theorem expiresAfter_tokenUntil_some {record : TokenRecord} {n : Int} {expiry : Instant}
    (hends : EndsAfter l n) (hcan : now.CanAdd n)
    (hexpiry : expiry.nanos = now.nanos + n * nanosPerSecond) :
    (record.tokenUntil (some expiry)).ExpiresAfter now l where
  none_iff := iff_of_false nofun hends.not_isEndless
  some_iff := by
    intro expiry'
    constructor
    · intro h
      cases h
      exact ⟨n, hends, hexpiry⟩
    · intro h
      obtain ⟨m, hm, hexpiry'⟩ := h
      cases hm.unique hends
      exact congrArg (fun nanos => some (Instant.mk nanos)) (hexpiry.trans hexpiry'.symm)
  later := by
    intro expiry' h
    cases h
    have hadded : 0 < n * (nanosPerSecond : Int) := Int.mul_pos hends.1 (by decide)
    have hlast := hcan.le_latest
    rw [Instant.lt_iff, Instant.le_iff]
    omega

/-- A token of a record expires when the lifetime of the record is over. -/
theorem expiresAfter_of_token {record : TokenRecord} (hnow : now.IsInCalendar)
    (h : record.token now = .ok token) :
    token.accessToken = record.accessToken ∧ token.ExpiresAfter now record.expiresIn := by
  rcases record.token_cases hnow with ⟨hendless, htoken⟩ | ⟨n, expiry, hends, hexpiry, htoken⟩ |
    ⟨n, -, htoken⟩ | ⟨-, fault, htoken⟩ <;> cases htoken.symm.trans h
  · exact ⟨rfl, expiresAfter_tokenUntil_none hendless⟩
  · exact ⟨rfl, expiresAfter_tokenUntil_some hends.1 hends.2 hexpiry⟩

/-- On arrival nothing but the text of a token can make it invalid. -/
theorem ExpiresAfter.isValidAt_iff (h : token.ExpiresAfter now l) :
    token.isValidAt now = true ↔ token.accessToken ≠ "" := by
  rw [Token.isValidAt_iff]
  exact and_iff_left fun expiry hexpiry => (h.later expiry hexpiry).1

theorem ofResponse_eq_ok_iff {contentType : String} {body : List UInt8} :
    ofResponse contentType body now = .ok token ↔
      ∃ record, ofBody contentType body = .ok record ∧ record.token now = .ok token := by
  rw [ofResponse]
  rcases ofBody contentType body with fault | record
  · simp
  · simp [mapError_eq_ok_iff]

/-- **Expiry.** A response gives a token or an error of the exchange. The token has no expiry
exactly if the body gives no positive lifetime, and else expires exactly when the lifetime is over,
which is later than now; so it is valid on arrival exactly if it is not empty. A lifetime that leads
beyond the calendar is an error, and what else can be read gives a token. -/
theorem expiry_of_ofResponse (contentType : String) (body : List UInt8)
    (hnow : now.IsInCalendar) :
    ((∃ token, ofResponse contentType body now = .ok token) ∨
      ∃ fault, ofResponse contentType body now = .error (.fetch fault)) ∧
    (∀ token, ofResponse contentType body now = .ok token →
      (∃ l, SaysLifetime contentType body l ∧ token.ExpiresAfter now l) ∧
      (token.isValidAt now = true ↔ token.accessToken ≠ "")) ∧
    (∀ l n, SaysLifetime contentType body l → EndsAfter l n → ¬ now.CanAdd n →
      ∃ fault, ofResponse contentType body now = .error (.fetch fault)) ∧
    (∀ record, ofBody contentType body = .ok record →
      ((∃ token, ofResponse contentType body now = .ok token ∧
          token.accessToken = record.accessToken) ↔
        IsEndless record.expiresIn ∨ ∃ n, EndsAfter record.expiresIn n ∧ now.CanAdd n)) := by
  have htotal : (∃ token, ofResponse contentType body now = .ok token) ∨
      ∃ fault, ofResponse contentType body now = .error (.fetch fault) := by
    rcases h : ofResponse contentType body now with e | token
    · obtain ⟨fault, rfl⟩ := exists_of_ofResponse_eq_error h
      exact .inr ⟨fault, rfl⟩
    · exact .inl ⟨token, rfl⟩
  refine ⟨htotal, ?_, ?_, ?_⟩
  · intro token h
    obtain ⟨record, hrecord, htoken⟩ := ofResponse_eq_ok_iff.mp h
    have hexpires := (expiresAfter_of_token hnow htoken).2
    exact ⟨⟨_, saysLifetime_of_ofBody hrecord, hexpires⟩, hexpires.isValidAt_iff⟩
  · intro l n hl hends hcan
    refine htotal.resolve_left fun h => ?_
    obtain ⟨token, h⟩ := h
    obtain ⟨record, hrecord, htoken⟩ := ofResponse_eq_ok_iff.mp h
    cases hl.unique (saysLifetime_of_ofBody hrecord)
    rcases (record.exists_token_iff hnow).mp ⟨token, htoken⟩ with hendless | ⟨m, hm, hcan'⟩
    · exact hends.not_isEndless hendless
    · exact hcan (hm.unique hends ▸ hcan')
  · intro record hrecord
    rw [← record.exists_token_iff hnow]
    constructor
    · intro h
      obtain ⟨token, h, -⟩ := h
      obtain ⟨record', hrecord', htoken⟩ := ofResponse_eq_ok_iff.mp h
      cases hrecord.symm.trans hrecord'
      exact ⟨token, htoken⟩
    · intro h
      obtain ⟨token, htoken⟩ := h
      exact ⟨token, ofResponse_eq_ok_iff.mpr ⟨record, hrecord, htoken⟩,
        (expiresAfter_of_token hnow htoken).1⟩

/-- One second before the calendar ends a token may last for one more, and not for two. -/
theorem expiry_at_end_of_calendar :
    let now : Instant := ⟨Instant.latest.nanos - nanosPerSecond⟩
    now.IsInCalendar ∧
    (∃ token, ofResponse "text/plain" (Utf8.ofText "access_token=t&expires_in=+%2B1+") now =
        .ok token ∧ token.expiry = some Instant.latest ∧ token.isValidAt now = true) ∧
    ∃ fault, ofResponse "text/plain" (Utf8.ofText "access_token=t&expires_in=2") now =
      .error (.fetch fault) := by
  intro now
  have hnow : now.IsInCalendar := ⟨by decide, by decide⟩
  obtain ⟨-, htoken, -, hgives⟩ := expiry_of_ofResponse "text/plain"
    (Utf8.ofText "access_token=t&expires_in=+%2B1+") hnow
  have hrecord : ofBody "text/plain" (Utf8.ofText "access_token=t&expires_in=+%2B1+") =
      .ok ⟨"t", none, some (.text " +1 ")⟩ := by
    decide +kernel
  have hends : EndsAfter (some (.text " +1 ")) 1 :=
    ⟨by decide, _, rfl, .text (by decide) (by decide)⟩
  obtain ⟨token, h, haccess⟩ := (hgives _ hrecord).mpr (.inr ⟨1, hends, by decide, by decide⟩)
  obtain ⟨⟨l, hl, hexpires⟩, hvalid⟩ := htoken token h
  cases hl.unique (saysLifetime_of_ofBody hrecord)
  refine ⟨hnow, ⟨token, h, (hexpires.some_iff _).mpr ⟨1, hends, by decide⟩,
    hvalid.mpr (haccess ▸ by decide)⟩, ?_⟩
  obtain ⟨-, -, hbeyond, -⟩ := expiry_of_ofResponse "text/plain"
    (Utf8.ofText "access_token=t&expires_in=2") hnow
  have hlifetime : Form.lastValue? (Form.decode (Utf8.ofText "access_token=t&expires_in=2"))
      "expires_in" = some "2" := by
    decide +kernel
  refine hbeyond _ 2 (.form (by decide)) ?_ fun hcan => absurd hcan.le_latest (by decide)
  rw [hlifetime]
  exact ⟨by decide, _, rfl, .text (by decide) (by decide)⟩

end Token

end TokenKeeper
