import AuthApi.Text
import Mathlib.Data.List.ReduceOption

/-!
# Keys of stored secrets

A stored secret names its key. `Keyring::knows_key_of` reads the name up to
the colon after it, and the count at start-up with `split_part`, which does
not ask for that colon. A secret that is a name and nothing more is read by
nobody and yet not counted.

`unknown_keys_counted` says that this is the only difference: the count is
right exactly if there is no such secret. It needs that a name has no colon,
which the names that `KeyEntry::new` derives do not have.
-/

namespace AuthApi

open Text

/-! ## Secrets under unknown keys -/

def v2Prefix : List Char := "v2:".toList

/-- `{byte:02x}`. -/
def hexByte (b : UInt8) : List Char := [Nat.digitChar (b.toNat / 16), Nat.digitChar (b.toNat % 16)]

/-- A key, with the name that is derived from it: eight bytes of a digest. -/
structure KeyEntry where
  kid : List Char
  key : Vector UInt8 32
  derived : ∃ digest : Vector UInt8 8, kid = digest.toList.flatMap hexByte

theorem KeyEntry.colon_not_mem (entry : KeyEntry) : ':' ∉ entry.kid := by
  have hbyte : ∀ n < 256, ':' ∉ hexByte (UInt8.ofNat n) := by decide +kernel
  obtain ⟨digest, hkid⟩ := entry.derived
  intro hmem
  rw [hkid, List.mem_flatMap] at hmem
  obtain ⟨b, -, hb⟩ := hmem
  rw [← UInt8.ofNat_toNat (x := b)] at hb
  exact hbyte b.toNat b.toNat_lt hb

structure Keyring where
  current : KeyEntry
  previous : Option KeyEntry

namespace Keyring

variable {keyring : Keyring} {kid : List Char}

/-- The current key, then the previous one. -/
def entries (keyring : Keyring) : List KeyEntry := keyring.current :: keyring.previous.toList

def kids (keyring : Keyring) : List (List Char) := keyring.entries.map (·.kid)

def keyFor (keyring : Keyring) (kid : List Char) : Option (Vector UInt8 32) :=
  (keyring.entries.find? (·.kid = kid)).map (·.key)

def knowsKeyOf (keyring : Keyring) (stored : List Char) : Bool :=
  ((stripPrefix v2Prefix stored).bind (splitOnce ':')).any fun (kid, _) =>
    (keyring.keyFor kid).isSome

theorem isSome_keyFor : (keyring.keyFor kid).isSome = true ↔ kid ∈ keyring.kids := by
  simp [keyFor, kids]

theorem colon_not_mem_of_mem_kids (h : kid ∈ keyring.kids) : ':' ∉ kid := by
  obtain ⟨entry, -, rfl⟩ := List.mem_map.mp h
  exact entry.colon_not_mem

end Keyring

/-- The field of this number, counted from 1, or the empty string. -/
def splitPart (s : List Char) (sep : Char) (n : Nat) : List Char := (s.splitOn sep)[n - 1]?.getD []

/-- `secret !~ '^v2:' OR split_part(secret, ':', 2) <> ALL($1)`. -/
def underUnknownKey (kids : List (List Char)) (secret : List Char) : Bool :=
  !v2Prefix.isPrefixOf secret || kids.all (splitPart secret ':' 2 ≠ ·)

/-- The query over the two columns, of which the first has nulls. -/
def secretsUnderUnknownKeys (keyring : Keyring) (totpSecrets : List (Option (List Char)))
    (webhookSecrets : List (List Char)) : Nat :=
  totpSecrets.countP (·.any (underUnknownKey keyring.kids)) +
    webhookSecrets.countP (underUnknownKey keyring.kids)

variable {keyring : Keyring}

theorem splitPart_v2 (rest : List Char) :
    splitPart (v2Prefix ++ rest) ':' 2 = ((splitOnce ':' rest).map (·.1)).getD rest := by
  have hsplit : (v2Prefix ++ rest).splitOn ':' = "v2".toList :: rest.splitOn ':' :=
    List.splitOn_append_cons_self_of_not_mem (show ':' ∉ "v2".toList by decide) rest
  rw [splitPart, hsplit]
  by_cases hmem : ':' ∈ rest
  · obtain ⟨kid, body, rfl, hkid⟩ := List.eq_append_cons_of_mem hmem
    rw [splitOnce_append hkid, List.splitOn_append_cons_self_of_not_mem hkid]
    rfl
  · rw [splitOnce, if_neg hmem, List.splitOn_eq_singleton hmem]
    rfl

/-- A secret is counted unless it is read, or is the name of a key and
nothing more. -/
theorem underUnknownKey_iff {secret : List Char} :
    underUnknownKey keyring.kids secret = true ↔
      keyring.knowsKeyOf secret = false ∧ ∀ kid ∈ keyring.kids, secret ≠ v2Prefix ++ kid := by
  by_cases hv2 : v2Prefix.isPrefixOf secret = true
  · obtain ⟨rest, rfl⟩ := List.isPrefixOf_iff_prefix.mp hv2
    have hfield : underUnknownKey keyring.kids (v2Prefix ++ rest) = true ↔
        ((splitOnce ':' rest).map (·.1)).getD rest ∉ keyring.kids := by
      rw [underUnknownKey, hv2, splitPart_v2, Bool.not_true, Bool.false_or, List.all_eq_true]
      simp only [decide_eq_true_eq]
      exact ⟨fun h hmem => h _ hmem rfl, fun h kid hkid heq => h (heq ▸ hkid)⟩
    have hbare : (∀ kid ∈ keyring.kids, v2Prefix ++ rest ≠ v2Prefix ++ kid) ↔
        rest ∉ keyring.kids := by
      simp only [ne_eq, List.append_cancel_left_eq]
      exact ⟨fun h hmem => h rest hmem rfl, fun h kid hkid heq => h (heq ▸ hkid)⟩
    rw [hfield, hbare, Keyring.knowsKeyOf, stripPrefix_append, Option.bind_some]
    by_cases hcolon : ':' ∈ rest
    · have hrest : rest ∉ keyring.kids := fun hmem =>
        Keyring.colon_not_mem_of_mem_kids hmem hcolon
      obtain ⟨kid, body, rfl, hkid⟩ := List.eq_append_cons_of_mem hcolon
      simp [splitOnce_append hkid, hrest, ← Keyring.isSome_keyFor]
    · simp [splitOnce, hcolon]
  · have hbare : ∀ kid ∈ keyring.kids, secret ≠ v2Prefix ++ kid := by
      rintro kid - rfl
      exact hv2 (List.isPrefixOf_iff_prefix.mpr (List.prefix_append _ _))
    simp only [underUnknownKey, Keyring.knowsKeyOf, stripPrefix, hv2]
    exact iff_of_true rfl ⟨rfl, hbare⟩

theorem countP_eq_iff_of_imp {p q : List Char → Bool} (himp : ∀ a, p a = true → q a = true)
    (l : List (List Char)) :
    l.countP p = l.countP q ↔ ∀ a ∈ l, q a = true → p a = true := by
  induction l with
  | nil => simp
  | cons a l ih =>
    have hle : l.countP p ≤ l.countP q := List.countP_mono_left fun a _ => himp a
    rw [List.forall_mem_cons, ← ih, List.countP_cons, List.countP_cons]
    by_cases hp : p a = true
    · simp [hp, himp a hp]
    · by_cases hq : q a = true
      · have hlt : l.countP p ≠ l.countP q + 1 := by omega
        simp [hp, hq, hlt]
      · simp [hp, hq]

/-- **Secrets that cannot be read are counted.** The count is that of the
secrets for which `knows_key_of` is false exactly if no secret is the name
of a key of the keyring and nothing more. -/
theorem unknown_keys_counted (keyring : Keyring) (totpSecrets : List (Option (List Char)))
    (webhookSecrets : List (List Char)) :
    secretsUnderUnknownKeys keyring totpSecrets webhookSecrets =
        (totpSecrets.reduceOption ++ webhookSecrets).countP (!keyring.knowsKeyOf ·) ↔
      ∀ secret ∈ totpSecrets.reduceOption ++ webhookSecrets,
        ∀ kid ∈ keyring.kids, secret ≠ v2Prefix ++ kid := by
  have htotp : totpSecrets.countP (·.any (underUnknownKey keyring.kids)) =
      totpSecrets.reduceOption.countP (underUnknownKey keyring.kids) := by
    rw [List.reduceOption, List.countP_filterMap]
    refine List.countP_congr fun secret _ => ?_
    cases secret <;> rfl
  have himp : ∀ secret, underUnknownKey keyring.kids secret = true →
      (!keyring.knowsKeyOf secret) = true := by
    intro secret h
    rw [(underUnknownKey_iff.mp h).1, Bool.not_false]
  rw [secretsUnderUnknownKeys, htotp, ← List.countP_append, countP_eq_iff_of_imp himp]
  refine forall₂_congr fun secret _ => ?_
  rw [underUnknownKey_iff, Bool.not_eq_true']
  constructor
  · intro h kid hkid heq
    -- The name of a key alone is not read.
    have hunread : keyring.knowsKeyOf secret = false := by
      have hcolon := Keyring.colon_not_mem_of_mem_kids hkid
      simp [heq, Keyring.knowsKeyOf, splitOnce, hcolon]
    exact (h hunread).2 kid hkid heq
  · exact fun hbare hunread => ⟨hunread, hbare⟩

/-- The key of zeros, under a name as it would be derived. -/
def zeroKey : KeyEntry where
  kid := "0a1b2c3d4e5f6071".toList
  key := Vector.replicate 32 0
  derived := ⟨#v[0x0a, 0x1b, 0x2c, 0x3d, 0x4e, 0x5f, 0x60, 0x71], by decide +kernel⟩

/-- A secret under the key of the keyring and one under another. -/
theorem one_unknown_key :
    secretsUnderUnknownKeys ⟨zeroKey, none⟩ [none, some "v2:0a1b2c3d4e5f6071:x".toList]
        ["v2:ffffffffffffffff:y".toList] = 1 ∧
      ["v2:0a1b2c3d4e5f6071:x".toList, "v2:ffffffffffffffff:y".toList].countP
        (!Keyring.knowsKeyOf ⟨zeroKey, none⟩ ·) = 1 := by
  have hone : secretsUnderUnknownKeys ⟨zeroKey, none⟩
      [none, some "v2:0a1b2c3d4e5f6071:x".toList] ["v2:ffffffffffffffff:y".toList] = 1 := by
    decide +kernel
  exact ⟨hone, ((unknown_keys_counted _ _ _).mpr (by decide +kernel)).symm.trans hone⟩

/-- A secret that is the name of the key and nothing more cannot be read,
and is not counted. -/
theorem bare_key_not_counted :
    secretsUnderUnknownKeys ⟨zeroKey, none⟩ [] ["v2:0a1b2c3d4e5f6071".toList] = 0 ∧
      Keyring.knowsKeyOf ⟨zeroKey, none⟩ "v2:0a1b2c3d4e5f6071".toList = false := by
  decide +kernel

end AuthApi
