/-
  How a call about snippets can end without its value.

  * `StoreError`: the errors that a caller is told, each with a message and a
    status;
  * `Abort`: a call that breaks off, because the expiry of a text would lie beyond
    the last instant of the clock; it gives no answer at all;
  * `Answer`: a value, an error or an abort.
-/
import CodeSnippets.Text.Basic

namespace CodeSnippets

/-- Why a call about snippets is refused. -/
inductive StoreError where
  | emptyInput
  | missingId
  | notFound
  | storeUnavailable
  /-- something about the store itself -/
  | backend (detail : Text)
  deriving DecidableEq, Repr

namespace StoreError

/-- The message of an error. -/
def message : StoreError → Text
  | emptyInput => "Content must not be empty".toList
  | missingId => "Missing snippet id".toList
  | notFound => "Not found".toList
  | storeUnavailable => "Snippet store is not configured".toList
  | backend detail => "Store error: ".toList ++ detail

/-- The status of the response that reports an error. -/
def status : StoreError → Nat
  | emptyInput | missingId => 400
  | notFound => 404
  | storeUnavailable | backend _ => 500

/-- A store that a call has broken off in the middle of a change is not used any more. -/
def lockPoisoned : StoreError := backend "store lock poisoned".toList

/-- Every id drawn was in use. -/
def noUnusedId : StoreError := backend "could not allocate an unused id".toList

end StoreError

/-- Why a call breaks off. -/
inductive Abort where
  | expiryOverflow
  deriving DecidableEq, Repr

/-- The message of an abort. -/
def Abort.message : Abort → Text
  | expiryOverflow => "overflow when adding duration to instant".toList

/-- Why a call has no value. -/
inductive Fault (ε : Type) where
  | error (e : ε)
  | abort (a : Abort)
  deriving DecidableEq, Repr

/-- The same fault for a caller with errors of its own. -/
def Fault.mapError {ε δ : Type} (f : ε → δ) : Fault ε → Fault δ
  | error e => error (f e)
  | abort a => abort a

/-- A value, or why there is none. -/
abbrev Answer (ε α : Type) := Except (Fault ε) α

end CodeSnippets
