import Mathlib.Data.List.DropRight
import Mathlib.Data.List.Infix
import Mathlib.Data.List.TakeWhile

/-!
# Strings, their bytes and their parts

A string is the list of its characters, and its bytes are their encodings
in UTF-8.
-/

namespace Text

/-! ## Bytes -/

def utf8 (s : List Char) : List UInt8 := s.flatMap String.utf8EncodeChar

/-- The string with these bytes, if there is one. -/
def fromUtf8 (bytes : List UInt8) : Option (List Char) :=
  bytes.toByteArray.utf8Decode?.map Array.toList

@[simp] theorem fromUtf8_utf8 (s : List Char) : fromUtf8 (utf8 s) = some s := by
  have h := List.utf8Decode?_utf8Encode (l := s)
  rw [List.utf8Encode] at h
  rw [fromUtf8, utf8, h]
  rfl

/-! ## Parts -/

variable {α : Type} [DecidableEq α] {sep : α} {a b : List α}

/-- The parts before and after the first separator. -/
def splitOnce (sep : α) (l : List α) : Option (List α × List α) :=
  if sep ∈ l then some (l.takeWhile (· ≠ sep), (l.dropWhile (· ≠ sep)).tail) else none

theorem splitOnce_append (h : sep ∉ a) : splitOnce sep (a ++ sep :: b) = some (a, b) := by
  have ha : ∀ x ∈ a, decide (x ≠ sep) = true := fun x hx =>
    decide_eq_true fun heq => h (heq ▸ hx)
  rw [splitOnce, if_pos (by simp), List.takeWhile_append_of_pos ha, List.dropWhile_append_of_pos ha]
  simp

/-- What follows `p`, if a string begins with it. -/
def stripPrefix (p l : List α) : Option (List α) :=
  if p.isPrefixOf l then some (l.drop p.length) else none

@[simp] theorem stripPrefix_append (p l : List α) : stripPrefix p (p ++ l) = some l := by
  simp [stripPrefix]

/-! ## Whitespace -/

/-- `White_Space` of the Unicode character database. -/
def isWhitespace (c : Char) : Bool :=
  9 ≤ c.toNat && c.toNat ≤ 13 || 0x2000 ≤ c.toNat && c.toNat ≤ 0x200A ||
    [32, 0x85, 0xA0, 0x1680, 0x2028, 0x2029, 0x202F, 0x205F, 0x3000].contains c.toNat

def trim (s : List Char) : List Char := (s.dropWhile isWhitespace).rdropWhile isWhitespace

theorem trim_eq_self {s : List Char} (h : ∀ c ∈ s, isWhitespace c = false) : trim s = s := by
  have hdrop : s.dropWhile isWhitespace = s := by
    cases s with
    | nil => rfl
    | cons c s => exact List.dropWhile_cons_of_neg (by simp [h c List.mem_cons_self])
  rw [trim, hdrop, List.rdropWhile_eq_self_iff]
  intro hne
  simp [h _ (List.getLast_mem hne)]

/-! ## `LIKE` -/

/-- A character with `p` comes first, and what follows is a match. -/
def startsWith (p : Char → Bool) (rest : List Char → Bool) : List Char → Bool
  | [] => false
  | c :: s => p c && rest s

/-- `LIKE`, with the backslash to escape. PostgreSQL refuses a pattern that
ends with it. -/
def like : List Char → List Char → Bool
  | [] => List.isEmpty
  | '%' :: pattern => fun s => s.tails.any (like pattern)
  | '_' :: pattern => startsWith (fun _ => true) (like pattern)
  | '\\' :: c :: pattern => startsWith (c = ·) (like pattern)
  | ['\\'] => fun _ => false
  | c :: pattern => startsWith (c = ·) (like pattern)

theorem like_cons {c : Char} (h : c ∉ ['%', '_', '\\']) (pattern : List Char) :
    like (c :: pattern) = startsWith (c = ·) (like pattern) := by
  simp only [List.mem_cons, List.not_mem_nil, or_false, not_or] at h
  rw [like]
  · exact h.1
  · exact h.2.1
  · exact fun _ _ hc => absurd hc h.2.2
  · exact fun hc => absurd hc h.2.2

theorem like_percent (s : List Char) : like ['%'] s = true := by
  simp only [like, List.any_eq_true]
  exact ⟨[], (List.mem_tails _ _).mpr List.nil_suffix, rfl⟩

/-! ## Base64 -/

/-- An engine: what it encodes it decodes, and its text has no whitespace. -/
structure Base64 where
  encode : List UInt8 → List Char
  decode : List Char → Option (List UInt8)
  decode_encode : ∀ bytes, decode (encode bytes) = some bytes
  encode_visible : ∀ bytes, ∀ c ∈ encode bytes, isWhitespace c = false

/-- An engine with a character for each byte. -/
def Base64.byteChars : Base64 where
  encode bytes := bytes.map fun b => Char.ofNat (0x100 + b.toNat)
  decode s := some (s.map fun c => UInt8.ofNat (c.toNat - 0x100))
  decode_encode bytes := by
    have hbyte : ∀ n < 256, UInt8.ofNat ((Char.ofNat (0x100 + n)).toNat - 0x100) =
        UInt8.ofNat n := by decide +kernel
    rw [List.map_map]
    refine congrArg some (List.map_id'' (fun b => ?_) bytes)
    exact (hbyte b.toNat b.toNat_lt).trans UInt8.ofNat_toNat
  encode_visible bytes c hc := by
    have hchar : ∀ n < 256, isWhitespace (Char.ofNat (0x100 + n)) = false := by decide +kernel
    obtain ⟨b, -, rfl⟩ := List.mem_map.mp hc
    exact hchar b.toNat b.toNat_lt

end Text
