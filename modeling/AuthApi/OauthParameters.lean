import AuthApi.Text
import Mathlib.Data.List.Nodup

/-!
# Parameters of OAuth requests

`form_parameters` notes the names it has seen with the values it keeps, so
that a name whose first value is empty may come again. For which bodies a
repetition is refused all the same says `repeated_parameters_refused`.

`basic_credentials` undoes what a client did to its id and secret
(`basic_credentials_roundtrip`). The crates that decode base64 and
percent-encoding are parameters, with the laws that are used of them.
-/

namespace AuthApi

variable {name value : String} {pairs parameters accepted : List (String × String)}

/-- The loop of `form_parameters`, with the parameters kept so far. -/
def formParametersLoop (parameters : List (String × String)) :
    List (String × String) → Except String (List (String × String))
  | [] => .ok parameters
  | (name, value) :: pairs =>
    if parameters.any (·.1 = name) then .error (name ++ " is repeated")
    else if value ≠ "" then formParametersLoop (parameters ++ [(name, value)]) pairs
    else formParametersLoop parameters pairs

/-- `parse` is `form_urlencoded::parse`. -/
def formParameters (parse : List UInt8 → List (String × String)) (body : List UInt8) :
    Except String (List (String × String)) :=
  formParametersLoop [] (parse body)

def parameter (parameters : List (String × String)) (name : String) : Option String :=
  (parameters.find? (·.1 = name)).map (·.2)

/-- What is kept, and which repetitions are noticed. -/
theorem formParametersLoop_eq_ok :
    formParametersLoop parameters pairs = .ok accepted ↔
      accepted = parameters ++ pairs.filter (·.2 ≠ "") ∧
      (∀ kept ∈ parameters, ∀ pair ∈ pairs, kept.1 ≠ pair.1) ∧
      pairs.Pairwise fun earlier later => earlier.2 ≠ "" → earlier.1 ≠ later.1 := by
  induction pairs generalizing parameters with
  | nil =>
    rw [formParametersLoop]
    simp [eq_comm (a := accepted)]
  | cons pair pairs ih =>
    obtain ⟨name, value⟩ := pair
    simp only [formParametersLoop, List.any_eq_true, decide_eq_true_eq]
    split <;> rename_i hseen
    · obtain ⟨kept, hkept, hname⟩ := hseen
      refine iff_of_false nofun fun h => ?_
      exact h.2.1 kept hkept (name, value) List.mem_cons_self hname
    · have hkept : (∀ kept ∈ parameters, ∀ pair ∈ (name, value) :: pairs, kept.1 ≠ pair.1) ↔
          ∀ kept ∈ parameters, ∀ pair ∈ pairs, kept.1 ≠ pair.1 := by
        refine forall₂_congr fun kept hkept => List.forall_mem_cons.trans (and_iff_right ?_)
        exact fun hname => hseen ⟨kept, hkept, hname⟩
      rw [hkept, List.pairwise_cons, List.filter_cons]
      split <;> rename_i hvalue <;> rw [ih]
      · simp [hvalue, or_imp, forall_and, and_assoc]
      · simp [hvalue]

/-- With each name in one pair, a parameter that is looked up is the value
kept from it. -/
theorem parameter_filter (hnodup : (pairs.map (·.1)).Nodup) :
    (∀ value, (name, value) ∈ pairs →
        parameter (pairs.filter (·.2 ≠ "")) name = if value = "" then none else some value) ∧
      ((∀ value, (name, value) ∉ pairs) → parameter (pairs.filter (·.2 ≠ "")) name = none) := by
  cases hfind : (pairs.filter (·.2 ≠ "")).find? (·.1 = name) with
  | none =>
    have hnone : parameter (pairs.filter (·.2 ≠ "")) name = none := by rw [parameter, hfind]; rfl
    refine ⟨fun value hmem => hnone.trans (if_pos ?_).symm, fun _ => hnone⟩
    by_contra hvalue
    exact List.find?_eq_none.mp hfind (name, value)
      (List.mem_filter.mpr ⟨hmem, decide_eq_true hvalue⟩) (decide_eq_true rfl)
  | some pair =>
    have hsome : parameter (pairs.filter (·.2 ≠ "")) name = some pair.2 := by
      rw [parameter, hfind]; rfl
    obtain ⟨hpair, hvalue⟩ := List.mem_filter.mp (List.mem_of_find?_eq_some hfind)
    obtain rfl : pair.1 = name := by simpa using List.find?_some hfind
    refine ⟨fun value hmem => ?_, fun habsent => absurd hpair (habsent pair.2)⟩
    rw [List.inj_on_of_nodup_map hnodup hpair hmem rfl] at hsome hvalue
    exact hsome.trans (if_neg (of_decide_eq_true hvalue)).symm

theorem formParameters_eq_ok (parse : List UInt8 → List (String × String)) (body : List UInt8) :
    formParameters parse body = .ok accepted ↔
      accepted = (parse body).filter (·.2 ≠ "") ∧
      (parse body).Pairwise fun earlier later => earlier.2 ≠ "" → earlier.1 ≠ later.1 := by
  rw [formParameters, formParametersLoop_eq_ok]
  simp

theorem formParameters_refused (parse : List UInt8 → List (String × String))
    (body : List UInt8) :
    (∃ e, formParameters parse body = .error e) ↔
      ¬ (parse body).Pairwise fun earlier later => earlier.2 ≠ "" → earlier.1 ≠ later.1 := by
  cases h : formParameters parse body with
  | error e =>
    refine iff_of_true ⟨e, rfl⟩ fun hnoticed => ?_
    cases h.symm.trans ((formParameters_eq_ok parse body).mpr ⟨rfl, hnoticed⟩)
  | ok accepted =>
    refine iff_of_false nofun fun hrefused => ?_
    exact hrefused ((formParameters_eq_ok parse body).mp h).2

/-- **Repeated parameters.** A body is refused exactly if a name occurs in
two pairs, and a parameter of an accepted one is the value of the pair with
its name unless that is empty: this holds of a body exactly if, when a name
is repeated at all, some name is repeated after a value that is not empty. -/
theorem repeated_parameters_refused (parse : List UInt8 → List (String × String))
    (body : List UInt8) :
    (((∃ e, formParameters parse body = .error e) ↔ ¬ ((parse body).map (·.1)).Nodup) ∧
      ∀ parameters, formParameters parse body = .ok parameters → ∀ name,
        (∀ value, (name, value) ∈ parse body →
          parameter parameters name = if value = "" then none else some value) ∧
        ((∀ value, (name, value) ∉ parse body) → parameter parameters name = none)) ↔
      (¬ ((parse body).map (·.1)).Nodup →
        ¬ (parse body).Pairwise fun earlier later => earlier.2 ≠ "" → earlier.1 ≠ later.1) := by
  rw [formParameters_refused]
  refine ⟨fun h => h.1.mpr, fun hnoticed => ⟨⟨fun hrefused hnodup => ?_, hnoticed⟩, ?_⟩⟩
  · rw [List.Nodup, List.pairwise_map] at hnodup
    refine hrefused (hnodup.imp ?_)
    exact fun hne _ => hne
  · intro parameters h name
    obtain ⟨rfl, haccepted⟩ := (formParameters_eq_ok parse body).mp h
    exact parameter_filter (not_imp_not.mp hnoticed haccepted)

/-- Two names, one of them with an empty value. -/
theorem two_parameters_accepted :
    ∃ parameters, formParameters (fun _ => [("scope", "read"), ("state", "")]) [] =
        .ok parameters ∧ parameter parameters "scope" = some "read" ∧
      parameter parameters "state" = none := by
  have h := (repeated_parameters_refused (fun _ => [("scope", "read"), ("state", "")]) []).mpr
    (by decide)
  have hok : formParameters (fun _ => [("scope", "read"), ("state", "")]) [] =
      .ok [("scope", "read")] := rfl
  exact ⟨_, hok, (h.2 _ hok "scope").1 "read" (by decide), (h.2 _ hok "state").1 "" (by decide)⟩

/-- A name comes with an empty value and then again. -/
theorem repeated_after_empty :
    ∃ parse, parse ("scope=&scope=admin".toUTF8.toList) = [("scope", ""), ("scope", "admin")] ∧
      formParameters parse ("scope=&scope=admin".toUTF8.toList) = .ok [("scope", "admin")] :=
  ⟨fun _ => [("scope", ""), ("scope", "admin")], rfl, rfl⟩

/-! ## Client credentials -/

section Credentials

open Text

def plusToSpace (s : List Char) : List Char := s.map fun c => if c = '+' then ' ' else c

def hexDigit (b : UInt8) : UInt8 := if b < 10 then 48 + b else 55 + b

/-- Letters, digits and `*-._` stay; a space is a plus or percent-encoded. -/
def formByte (plus : Bool) (b : UInt8) : List Char :=
  if b = 32 ∧ plus then ['+']
  else if 48 ≤ b ∧ b ≤ 57 ∨ 65 ≤ b ∧ b ≤ 90 ∨ 97 ≤ b ∧ b ≤ 122 ∨ b ∈ [42, 45, 46, 95] then
    [Char.ofNat b.toNat]
  else ['%', Char.ofNat (hexDigit (b / 16)).toNat, Char.ofNat (hexDigit (b % 16)).toNat]

def formUrlencode (plus : Bool) (s : List Char) : List Char := (utf8 s).flatMap (formByte plus)

/-- `percent_decode` of the crate `percent-encoding`: what is assumed of it
is that it gives back one form-urlencoded byte after the other. -/
structure PercentDecoder where
  decode : List UInt8 → List UInt8
  decode_nil : decode [] = []
  decode_formByte : ∀ plus b rest,
    decode (utf8 (plusToSpace (formByte plus b)) ++ rest) = b :: decode rest

def unescape (percent : PercentDecoder) (s : List Char) : Option (List Char) :=
  fromUtf8 (percent.decode (utf8 (plusToSpace s)))

def basicCredentials (b64 : Base64) (percent : PercentDecoder) (header : List Char) :
    Option (List Char × List Char) := do
  let encoded ← (stripPrefix "Basic ".toList header).or (stripPrefix "basic ".toList header)
  let decoded ← fromUtf8 (← b64.decode (trim encoded))
  let (id, secret) ← splitOnce ':' decoded
  let id ← unescape percent id
  let secret ← unescape percent secret
  if id = [] then none else some (id, secret)

theorem unescape_formUrlencode (percent : PercentDecoder) (plus : Bool) (s : List Char) :
    unescape percent (formUrlencode plus s) = some s := by
  have hbytes : ∀ bytes : List UInt8,
      percent.decode (utf8 (plusToSpace (bytes.flatMap (formByte plus)))) = bytes := by
    intro bytes
    induction bytes with
    | nil => exact percent.decode_nil
    | cons b bytes ih =>
      rw [List.flatMap_cons, plusToSpace, List.map_append, utf8, List.flatMap_append]
      exact (percent.decode_formByte plus b _).trans (congrArg (b :: ·) ih)
  rw [unescape, formUrlencode, hbytes, fromUtf8_utf8]

theorem colon_not_mem_formUrlencode (plus : Bool) (s : List Char) :
    ':' ∉ formUrlencode plus s := by
  have hbyte : ∀ n < 256, ∀ plus, ':' ∉ formByte plus (UInt8.ofNat n) := by decide +kernel
  intro hmem
  obtain ⟨b, -, hb⟩ := List.mem_flatMap.mp hmem
  rw [← UInt8.ofNat_toNat (x := b)] at hb
  exact hbyte b.toNat b.toNat_lt plus hb

/-- **Client credentials.** The id and secret of a header are those that
were form-urlencoded, joined and encoded. -/
theorem basic_credentials_roundtrip (b64 : Base64) (percent : PercentDecoder)
    (plus plus' : Bool) (id secret : List Char) (hid : id ≠ []) :
    basicCredentials b64 percent ("Basic ".toList ++ b64.encode
      (utf8 (formUrlencode plus id ++ ':' :: formUrlencode plus' secret))) =
      some (id, secret) := by
  have htrim : ∀ bytes, trim (b64.encode bytes) = b64.encode bytes := fun bytes =>
    trim_eq_self (b64.encode_visible bytes)
  simp only [basicCredentials, stripPrefix_append, htrim, b64.decode_encode, fromUtf8_utf8,
    splitOnce_append (colon_not_mem_formUrlencode plus id), unescape_formUrlencode, Option.or,
    Option.bind_eq_bind, Option.bind_some, if_neg hid]

/-! ### A decoder -/

def hexValue (b : UInt8) : Option UInt8 :=
  if 48 ≤ b ∧ b ≤ 57 then some (b - 48)
  else if 65 ≤ b ∧ b ≤ 70 then some (b - 55)
  else if 97 ≤ b ∧ b ≤ 102 then some (b - 87)
  else none

/-- A `%` without two hexadecimal digits stays. -/
def percentDecode : List UInt8 → List UInt8
  | 37 :: high :: low :: rest =>
    match hexValue high, hexValue low with
    | some h, some l => (h * 16 + l) :: percentDecode rest
    | _, _ => 37 :: percentDecode (high :: low :: rest)
  | b :: rest => b :: percentDecode rest
  | [] => []

/-- An encoded byte, with pluses replaced, is itself or two digits after a
`%`. -/
theorem formByte_cases (plus : Bool) (b : UInt8) :
    utf8 (plusToSpace (formByte plus b)) = [b] ∧ b ≠ 37 ∨
      utf8 (plusToSpace (formByte plus b)) = [37, hexDigit (b / 16), hexDigit (b % 16)] ∧
        hexValue (hexDigit (b / 16)) = some (b / 16) ∧
        hexValue (hexDigit (b % 16)) = some (b % 16) := by
  obtain ⟨n, hn, rfl⟩ : ∃ n < 256, UInt8.ofNat n = b :=
    ⟨b.toNat, b.toNat_lt, UInt8.ofNat_toNat⟩
  revert plus
  revert n
  decide +kernel

theorem percentDecode_formByte (plus : Bool) (b : UInt8) (rest : List UInt8) :
    percentDecode (utf8 (plusToSpace (formByte plus b)) ++ rest) = b :: percentDecode rest := by
  rcases formByte_cases plus b with ⟨hb, hne⟩ | ⟨hb, hhigh, hlow⟩ <;> rw [hb]
  · rw [List.singleton_append, percentDecode]
    rintro _ _ _ rfl
    exact absurd rfl hne
  · have hb : b / 16 * 16 + b % 16 = b := by
      have hlt := b.toNat_lt
      rw [← UInt8.toNat_inj]
      simp
      omega
    simp only [List.cons_append, List.nil_append, percentDecode, hhigh, hlow, hb]

def PercentDecoder.plain : PercentDecoder := ⟨percentDecode, rfl, percentDecode_formByte⟩

/-- An id with a space, and a secret with a colon and a plus sign. -/
theorem credentials_with_separators :
    basicCredentials Base64.byteChars .plain ("Basic ".toList ++ Base64.byteChars.encode
      (utf8 (formUrlencode true "my app".toList ++ ':' :: formUrlencode false "a:b+c %".toList))) =
      some ("my app".toList, "a:b+c %".toList) :=
  basic_credentials_roundtrip Base64.byteChars .plain true false "my app".toList
    "a:b+c %".toList (by decide)

end Credentials

end AuthApi
