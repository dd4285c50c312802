import Mathlib
import DebBuilder.Github.Client
import DebBuilder.Lib.Fallible

/-!
# Downloads are all or nothing

The handlers of `_download` remove the destination whatever has raised, and no handler runs for an
exception that they do not name.

## Main definitions

* `Whole` — what a download that is all or nothing leaves and returns.
* `Exchange.fault` — what the library raises in the exchange.

## Main statements

* `download_whole_iff` — when a download is all or nothing.
-/

namespace DebBuilder.Github
open Lib

/-- The bytes that a response has given, up to its end or its first failure. -/
def received : List Read → List UInt8
  | [] => []
  | .failed _ :: _ => []
  | .chunk bytes _ :: reads => if bytes = [] then [] else bytes ++ received reads

/-- Either a new file with the bytes received, and its true size and digest, or an error of the
client and the destination as it was. -/
def Whole (digest : List UInt8 → String) (maxBytes : Nat) (before : Option (List UInt8)) (reads : List Read) :
    Option (List UInt8) × Except Raised Downloaded → Prop
  | (after, .ok result) =>
      before = none ∧ after = some (received reads) ∧ (received reads).length ≤ maxBytes ∧
        result.size = (received reads).length ∧ result.sha256 = digest (received reads)
  | (after, .error (.gitHub _)) => after = before
  | (_, .error _) => False

/-- What reading or writing raises, within the room that is left. -/
def readFault (room : Nat) : List Read → Option Raised
  | [] => none
  | .failed raised :: _ => some raised
  | .chunk bytes write :: reads =>
      if bytes = [] ∨ room < bytes.length then none
      else match write with
        | .stored => readFault (room - bytes.length) reads
        | .failed _ raised => some raised

/-- What the check of a URL raises. -/
def checkFault (refused : List Char → Bool) (url : String) : Option Raised :=
  match validateDownloadUrl refused url with
  | .error raised => some raised
  | .ok _ => none

/-- What leaves an exchange whose destination can be created.  An exception of a later stage hides
the one that it was raised in. -/
def Exchange.fault (refused : List Char → Bool) (maxBytes : Nat) (exchange : Exchange) : Option Raised :=
  exchange.opening.or <| exchange.leaving.or <| (checkFault refused exchange.finalUrl).or <|
    exchange.creating.or <| exchange.closing.or <| readFault maxBytes exchange.reads

/-! ## The loop -/

section
variable {maxBytes : Nat} {content : List UInt8} {reads : List Read} {name : String}

theorem stream_foreign (hroom : content.length ≤ maxBytes) :
    (stream maxBytes content reads).2 = some (.foreign name) ↔
      readFault (maxBytes - content.length) reads = some (.foreign name) := by
  induction reads generalizing content with
  | nil => simp [stream, readFault]
  | cons read reads ih =>
      cases read with
      | failed raised => simp [stream, readFault]
      | chunk bytes write =>
          simp only [stream, readFault]
          by_cases hempty : bytes = []
          · simp [hempty]
          by_cases hfits : maxBytes < content.length + bytes.length
          · have hover : maxBytes - content.length < bytes.length := by omega
            simp [hempty, hfits, hover]
          have hover : ¬ maxBytes - content.length < bytes.length := by omega
          rw [if_neg hempty, if_neg hfits, if_neg (not_or.2 ⟨hempty, hover⟩)]
          cases write with
          | stored =>
              have hroom' : (content ++ bytes).length ≤ maxBytes := by
                rw [List.length_append]
                omega
              have hleft : maxBytes - (content ++ bytes).length = maxBytes - content.length - bytes.length := by
                rw [List.length_append]
                omega
              rw [← hleft]
              exact ih hroom'
          | failed kept raised => rfl

/-- A loop that raises nothing has written what the response has given. -/
theorem stream_eq_received (hroom : content.length ≤ maxBytes) (h : (stream maxBytes content reads).2 = none) :
    (stream maxBytes content reads).1 = content ++ received reads ∧ (content ++ received reads).length ≤ maxBytes := by
  induction reads generalizing content with
  | nil => simpa [stream, received] using hroom
  | cons read reads ih =>
      cases read with
      | failed raised => exact nomatch h
      | chunk bytes write =>
          simp only [stream, received] at h ⊢
          by_cases hempty : bytes = []
          · simpa [hempty] using hroom
          rw [if_neg hempty] at h ⊢
          by_cases hfits : maxBytes < content.length + bytes.length
          · rw [if_pos hfits] at h
            exact nomatch h
          rw [if_neg hfits] at h ⊢
          rw [if_neg hempty]
          cases write with
          | failed kept raised => exact nomatch h
          | stored =>
              have hroom' : (content ++ bytes).length ≤ maxBytes := by
                rw [List.length_append]
                omega
              rw [← List.append_assoc]
              exact ih hroom' h

end

/-! ## The exchange -/

section
variable {refused : List Char → Bool} {maxBytes : Nat} {exchange : Exchange} {name : String}

/-- Where there is a file already, something is raised. -/
theorem attempt_of_some (old : List UInt8) : ∃ raised, (attempt refused maxBytes (some old) exchange).2 = some raised := by
  cases hopening : exchange.opening with
  | some raised => exact ⟨raised, by rw [attempt, hopening]⟩
  | none =>
      cases hleaving : exchange.leaving with
      | some raised => exact ⟨raised, by simp [attempt, hopening, hleaving]⟩
      | none =>
          cases hfinal : validateDownloadUrl refused exchange.finalUrl with
          | error raised => exact ⟨raised, by simp [attempt, hopening, hleaving, hfinal]⟩
          | ok _ => exact ⟨.osError, by simp [attempt, hopening, hleaving, hfinal]⟩

theorem attempt_foreign :
    (attempt refused maxBytes none exchange).2 = some (.foreign name) ↔ exchange.fault refused maxBytes = some (.foreign name) := by
  rw [attempt, Exchange.fault, checkFault]
  cases exchange.opening with
  | some raised => rfl
  | none =>
      simp only [Option.none_or]
      cases exchange.leaving with
      | some raised => rfl
      | none =>
          simp only [Option.none_or]
          cases validateDownloadUrl refused exchange.finalUrl with
          | error raised => rfl
          | ok _ =>
              simp only [Option.none_or]
              cases exchange.creating with
              | some raised => rfl
              | none =>
                  simp only [Option.none_or]
                  cases exchange.closing with
                  | some raised => rfl
                  | none => exact stream_foreign (Nat.zero_le _)

theorem attempt_eq_received (h : (attempt refused maxBytes none exchange).2 = none) :
    (attempt refused maxBytes none exchange).1 = some (received exchange.reads) ∧ (received exchange.reads).length ≤ maxBytes := by
  rw [attempt] at h ⊢
  cases hopening : exchange.opening with
  | some raised =>
      rw [hopening] at h
      exact nomatch h
  | none =>
      simp only [hopening, Option.or_eq_none_iff] at h ⊢
      obtain ⟨-, h⟩ := h
      cases hfinal : validateDownloadUrl refused exchange.finalUrl with
      | error raised =>
          rw [hfinal] at h
          exact nomatch h
      | ok _ =>
          simp only [hfinal] at h ⊢
          cases hcreating : exchange.creating with
          | some raised =>
              rw [hcreating] at h
              exact nomatch h
          | none =>
              simp only [hcreating, Option.isSome_none, Bool.false_eq_true, if_false, Option.or_eq_none_iff] at h ⊢
              have hstream := stream_eq_received (Nat.zero_le _) h.2
              rw [hstream.1]
              exact ⟨rfl, hstream.2⟩

end

/-! ## The download -/

/-- A download is all or nothing exactly if the client refuses its URL, or the destination was absent
and no exception leaves the exchange that the handlers do not name. -/
theorem download_whole_iff (refused : List Char → Bool) (digest : List UInt8 → String) (url : String) (maxBytes : Nat)
    (before : Option (List UInt8)) (exchange : Exchange) :
    Whole digest maxBytes before exchange.reads (download refused digest url maxBytes before exchange) ↔
      (∃ error, validateDownloadUrl refused url = .error (.gitHub error)) ∨
        (validateDownloadUrl refused url = .ok () ∧ before = none ∧
          ∀ name, exchange.fault refused maxBytes ≠ some (.foreign name)) := by
  rw [download]
  cases hurl : validateDownloadUrl refused url with
  | error raised =>
      cases raised with
      | gitHub error => simp [Whole]
      | osError => simp [Whole]
      | foreign name => simp [Whole]
  | ok _ =>
      simp only [reduceCtorEq, exists_false, false_or, true_and]
      cases before with
      | some old =>
          -- A file that was there is removed, or an exception passes that no handler names.
          obtain ⟨raised, hraised⟩ := @attempt_of_some refused maxBytes exchange old
          generalize attempt refused maxBytes (some old) exchange = left at hraised ⊢
          obtain ⟨after, result⟩ := left
          cases hraised
          cases raised with
          | gitHub error => simp [Whole]
          | osError => simp [Whole]
          | foreign name => simp [Whole]
      | none =>
          have hforeign := fun name => @attempt_foreign refused maxBytes exchange name
          have hreceived := @attempt_eq_received refused maxBytes exchange
          generalize attempt refused maxBytes none exchange = left at hforeign hreceived ⊢
          obtain ⟨after, result⟩ := left
          cases result with
          | none =>
              obtain ⟨hafter, hlength⟩ := hreceived rfl
              simp only at hafter
              subst hafter
              have hfault : ∀ name, exchange.fault refused maxBytes ≠ some (.foreign name) := by
                intro name hname
                exact nomatch (hforeign name).2 hname
              exact ⟨fun _ => ⟨rfl, hfault⟩, fun _ => ⟨rfl, rfl, hlength, rfl, rfl⟩⟩
          | some raised =>
              cases raised with
              | gitHub error =>
                  refine ⟨fun _ => ⟨rfl, fun name hname => ?_⟩, fun _ => rfl⟩
                  exact nomatch (hforeign name).2 hname
              | osError =>
                  refine ⟨fun _ => ⟨rfl, fun name hname => ?_⟩, fun _ => rfl⟩
                  exact nomatch (hforeign name).2 hname
              | foreign name => exact ⟨False.elim, fun h => h.2 name ((hforeign name).1 rfl)⟩

/-- A file that was there is removed when it cannot be created, and a response that breaks off leaves
what it has given so far. -/
theorem download_fails :
    let exchange : Exchange := ⟨none, "https://github.com/a", none, [], none, none⟩
    let broken : Exchange := { exchange with reads := [.chunk [1] .stored, .failed (.foreign "IncompleteRead")] }
    (download (fun _ => false) (fun _ => "") "https://github.com/a" 10 (some [7]) exchange).1 = none ∧
      ¬ Whole (fun _ => "") 10 (some [7]) exchange.reads
        (download (fun _ => false) (fun _ => "") "https://github.com/a" 10 (some [7]) exchange) ∧
      (download (fun _ => false) (fun _ => "") "https://github.com/a" 10 none broken).1 = some [1] ∧
      ¬ Whole (fun _ => "") 10 none broken.reads
        (download (fun _ => false) (fun _ => "") "https://github.com/a" 10 none broken) := by
  have hurl : validateDownloadUrl (fun _ => false) "https://github.com/a" = .ok () := by rfl
  simp [download, hurl, attempt, Whole, stream]

end DebBuilder.Github
