import Mathlib
import DebBuilder.Lib.Fallible
import DebBuilder.Lib.Text
import DebBuilder.Lib.Utf8

/-!
# Cookies and their signatures

A session is carried by a cookie: the identifier of the session, a dot, and a signature.  What
the browser sends is decoded before the signature is compared.

## Main definitions

* `parseCookies`, `cookie` — the cookies of a header.
* `signValue`, `unsignValue` — signatures, with the digests of a secret as a `Mac`.

## Main results

* `unsignValue_eq_ok` — what is read from a signed value.
* `unsignValue_ok_iff` — a value with a signature in ASCII is compared, and no other.
-/

namespace DebBuilder.Auth
open Lib

-- Texts are decided along their characters, not over all characters there are.
attribute [local instance (2000)] List.decidableBAll List.decidableBEx

/-! ## Headers -/

/-- `header_value(headers, name)`: the last header of that name. -/
def headerValue (headers : List (String × String)) (name : String) : List Char :=
  let rows := headers.map fun header => (Text.lower header.1.toList, Text.strip header.2.toList)
  (rows.reverse.lookup (Text.lower name.toList)).getD []

def hexDigit (c : Char) : Option Nat :=
  if c.isDigit then some (c.toNat - '0'.toNat)
  else if 'a' ≤ c ∧ c ≤ 'f' then some (c.toNat - 'a'.toNat + 10)
  else if 'A' ≤ c ∧ c ≤ 'F' then some (c.toNat - 'A'.toNat + 10)
  else none

/-- The byte that two digits stand for. -/
def hexByte (digits : List Char) : Option UInt8 :=
  match digits with
  | [a, b] => (hexDigit a).bind fun high => (hexDigit b).map fun low => UInt8.ofNat (16 * high + low)
  | _ => none

def isAscii (c : Char) : Bool := c.toNat < 128

/-- What is left to decode, behind the bytes of a run of ASCII and `skip` digits. -/
def unquoteFrom (bytes : List UInt8) (skip : Nat) : List Char → List Char
  | [] => Utf8.decode bytes
  | c :: cs =>
      if 0 < skip then unquoteFrom bytes (skip - 1) cs
      else if isAscii c then
        match if c = '%' then hexByte (cs.take 2) else none with
        | some byte => unquoteFrom (bytes ++ [byte]) 2 cs
        | none => unquoteFrom (bytes ++ [UInt8.ofNat c.toNat]) 0 cs
      else Utf8.decode bytes ++ c :: unquoteFrom [] 0 cs

/-- `urllib.parse.unquote(text)` -/
def unquote (text : List Char) : List Char := unquoteFrom [] 0 text

example : unquote "a%2Eb%zz%C3%A9".toList = "a.b%zzé".toList := by decide +kernel

/-- `parse_cookies(header)`: the assignments, in order. -/
def parseCookies (header : List Char) : List (List Char × List Char) :=
  (header.splitOn ';').filterMap fun part => (Text.cut ['='] part).map fun pair =>
    (Text.strip pair.1, unquote (Text.strip pair.2))

/-- `cookies.get(name, "")`: the last assignment counts. -/
def cookie (cookies : List (List Char × List Char)) (name : String) : String :=
  String.ofList ((cookies.reverse.lookup name.toList).getD [])

/-- `parse_cookies(header_value(headers, "Cookie")).get("debbuilder_session", "")` -/
def sessionCookie (headers : List (String × String)) : String :=
  cookie (parseCookies (headerValue headers "Cookie")) "debbuilder_session"

/-! ## Signatures -/

/-- The digests of a secret, in hexadecimal. -/
structure Mac where
  digest : String → String
  hex : ∀ value, ∀ c ∈ (digest value).toList, c ∈ "0123456789abcdef".toList

/-- `comparing strings with non-ASCII characters is not supported` -/
inductive TypeError where
  | nonAscii
deriving DecidableEq

/-- `hmac.compare_digest(a, b)` -/
def compareDigest (a b : String) : Except TypeError Bool :=
  if a.toList.all isAscii && b.toList.all isAscii then .ok (a = b) else .error .nonAscii

/-- The parts of a text around its last dot. -/
def rcut : List Char → Option (List Char × List Char)
  | [] => none
  | c :: cs =>
      match rcut cs with
      | some (before, after) => some (c :: before, after)
      | none => if c = '.' then some ([], cs) else none

/-- `text.rpartition(".")`, where there is a dot. -/
def rpartition (text : String) : Option (String × String) :=
  (rcut text.toList).map fun parts => (String.ofList parts.1, String.ofList parts.2)

/-- `sign_value(value, secret)` -/
def signValue (mac : Mac) (value : String) : String := value ++ "." ++ mac.digest value

/-- `unsign_value(value, secret)` -/
def unsignValue (mac : Mac) (value : String) : Except TypeError (Option String) :=
  match rpartition value with
  | none => .ok none
  | some (raw, signature) => do
      let same ← compareDigest signature (mac.digest raw)
      return if same then some raw else none

variable {mac : Mac} {value raw signature : String}

theorem Mac.isAscii (mac : Mac) (value : String) : (mac.digest value).toList.all Auth.isAscii = true := by
  have hdigits : ∀ c ∈ "0123456789abcdef".toList, Auth.isAscii c = true := by decide
  rw [List.all_eq_true]
  intro c hc
  exact hdigits c (mac.hex value c hc)

theorem Mac.notMem_dot (mac : Mac) (value : String) : '.' ∉ (mac.digest value).toList := by
  intro hmem
  exact absurd (mac.hex value '.' hmem) (by decide)

theorem rcut_eq_none {text : List Char} : rcut text = none ↔ '.' ∉ text := by
  induction text with
  | nil => simp [rcut]
  | cons c cs ih =>
      rw [rcut, List.mem_cons, not_or, ← ih]
      cases hrest : rcut cs with
      | none =>
          by_cases hc : c = '.'
          · simp [hc]
          · simp [hc, Ne.symm hc]
      | some parts => simp

theorem rcut_eq_some {text before after : List Char} :
    rcut text = some (before, after) ↔ text = before ++ '.' :: after ∧ '.' ∉ after := by
  induction text generalizing before after with
  | nil => simp [rcut]
  | cons c cs ih =>
      rw [rcut]
      cases hrest : rcut cs with
      | none =>
          have hdot := rcut_eq_none.1 hrest
          simp only
          constructor
          · intro h
            by_cases hc : c = '.'
            · rw [if_pos hc, Option.some.injEq, Prod.mk.injEq] at h
              rw [← h.1, ← h.2, hc]
              exact ⟨rfl, hdot⟩
            · rw [if_neg hc] at h
              cases h
          · rintro ⟨heq, -⟩
            cases before with
            | nil =>
                obtain ⟨rfl, rfl⟩ := List.cons.inj heq
                rfl
            | cons d before =>
                rw [(List.cons.inj heq).2] at hdot
                simp at hdot
      | some parts =>
          obtain ⟨found, last⟩ := parts
          obtain ⟨hcs, hlast⟩ := ih.1 hrest
          simp only
          constructor
          · intro h
            rw [Option.some.injEq, Prod.mk.injEq] at h
            rw [← h.1, ← h.2, hcs]
            exact ⟨rfl, hlast⟩
          · rintro ⟨heq, hafter⟩
            cases before with
            | nil =>
                rw [← (List.cons.inj heq).2, hcs] at hafter
                simp at hafter
            | cons d before =>
                obtain ⟨rfl, htail⟩ := List.cons.inj heq
                obtain ⟨rfl, rfl⟩ := Prod.mk.inj (Option.some.inj (hrest.symm.trans (ih.2 ⟨htail, hafter⟩)))
                rfl

theorem rpartition_eq_some :
    rpartition value = some (raw, signature) ↔ value = raw ++ "." ++ signature ∧ '.' ∉ signature.toList := by
  have hdot : ".".toList = ['.'] := by decide
  rw [rpartition, Option.map_eq_some_iff, ← String.toList_inj, String.toList_append, String.toList_append, hdot,
    List.append_assoc, List.singleton_append, ← rcut_eq_some]
  constructor
  · rintro ⟨parts, hparts, heq⟩
    obtain ⟨rfl, rfl⟩ := Prod.mk.inj heq
    rw [String.toList_ofList, String.toList_ofList]
    exact hparts
  · intro h
    exact ⟨_, h, by simp⟩

theorem compareDigest_digest (h : signature.toList.all isAscii = true) :
    compareDigest signature (mac.digest raw) = .ok (signature = mac.digest raw) := by
  rw [compareDigest, h, mac.isAscii]
  rfl

/-- A signed value is read back, and nothing else is read. -/
theorem unsignValue_eq_ok : unsignValue mac value = .ok (some raw) ↔ value = signValue mac raw := by
  rw [unsignValue]
  constructor
  · intro h
    split at h
    · cases h
    · next found signature hparts =>
      obtain ⟨same, hsame, h⟩ := bind_eq_ok.1 h
      rw [compareDigest] at hsame
      split at hsame
      · split at h
        · next htrue =>
          obtain rfl := Option.some.inj (pure_eq_ok.1 h)
          have heq : signature = mac.digest found := by simpa [htrue] using Except.ok.inj hsame
          rw [signValue, ← heq]
          exact (rpartition_eq_some.1 hparts).1
        · cases pure_eq_ok.1 h
      · cases hsame
  · rintro rfl
    have hparts : rpartition (signValue mac raw) = some (raw, mac.digest raw) :=
      rpartition_eq_some.2 ⟨rfl, mac.notMem_dot raw⟩
    rw [hparts]
    simp only [compareDigest_digest (mac.isAscii raw)]
    rfl

/-- The text behind the last dot of a cookie can be compared. -/
def Comparable (value : String) : Prop :=
  ∀ raw signature, rpartition value = some (raw, signature) → signature.toList.all isAscii = true

/-- Only a signature outside of ASCII cannot be compared. -/
theorem unsignValue_ok_iff : (∃ raw, unsignValue mac value = .ok raw) ↔ Comparable value := by
  rw [unsignValue, Comparable]
  cases hparts : rpartition value with
  | none => simp
  | some parts =>
      obtain ⟨found, signature⟩ := parts
      simp only [Option.some.injEq, Prod.mk.injEq, and_imp]
      constructor
      · rintro ⟨raw, hraw⟩ _ _ rfl rfl
        obtain ⟨same, hsame, -⟩ := bind_eq_ok.1 hraw
        rw [compareDigest] at hsame
        split at hsame
        · next hascii => exact (Bool.and_eq_true _ _ ▸ hascii).1
        · cases hsame
      · intro h
        rw [compareDigest_digest (h found signature rfl rfl)]
        exact ⟨_, rfl⟩

end DebBuilder.Auth
