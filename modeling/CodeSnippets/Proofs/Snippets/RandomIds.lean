/-
  The ids that a store makes.

  * `SnippetId.mem_digits_ofDraw`: such an id is made of lower-case hexadecimal digits;
  * `SnippetId.length_ofDraw`: it is as long as it was asked for, within 1 and 32;
  * `SnippetId.ofText?_ofDraw`: its text names it.
-/
import CodeSnippets.Proofs.Text.LeadingRuns
import CodeSnippets.Snippets.Id
import Mathlib.Data.List.Basic

namespace CodeSnippets

/-! ## Hexadecimal digits -/

/-- The lower-case hexadecimal digits. -/
def lowerHexDigits : List Char := "0123456789abcdef".toList

theorem digitChar_mem {n : Nat} (h : n < 16) : n.digitChar ∈ lowerHexDigits := by
  have hall : ∀ n < 16, Nat.digitChar n ∈ lowerHexDigits := by decide
  exact hall n h

theorem toDigits_subset (n : Nat) : Nat.toDigits 16 n ⊆ lowerHexDigits := by
  induction n using Nat.strongRecOn with
  | _ n ih =>
    rw [Nat.toDigits_eq_if (by decide)]
    split
    · rename_i hlt
      exact List.cons_subset.2 ⟨digitChar_mem hlt, List.nil_subset _⟩
    · rename_i hge
      have hlast : (n % 16).digitChar ∈ lowerHexDigits := digitChar_mem (Nat.mod_lt n (by decide))
      refine List.append_subset.2 ⟨ih (n / 16) (by omega), ?_⟩
      exact List.cons_subset.2 ⟨hlast, List.nil_subset _⟩

theorem hexDigits_subset (width n : Nat) : Text.hexDigits width n ⊆ lowerHexDigits := by
  refine List.append_subset.2 ⟨fun c hc => ?_, toDigits_subset n⟩
  rw [List.eq_of_mem_replicate hc]
  decide

theorem le_length_hexDigits (width n : Nat) : width ≤ (Text.hexDigits width n).length := by
  simp only [Text.hexDigits, List.length_append, List.length_replicate]
  omega

/-! ## Ids -/

namespace SnippetId

theorem randomDigits_subset (n : Nat) : randomDigits n ⊆ lowerHexDigits := by
  intro c hc
  rw [randomDigits, List.modify_eq_set] at hc
  rcases List.mem_or_eq_of_mem_set hc with hc | rfl
  · rcases List.mem_or_eq_of_mem_set hc with hc | rfl
    · exact hexDigits_subset _ _ hc
    · decide
  · exact digitChar_mem (by omega)

theorem le_length_randomDigits (n : Nat) : 32 ≤ (randomDigits n).length := by
  rw [randomDigits, List.length_modify, List.length_set]
  exact le_length_hexDigits _ _

theorem mem_digits_ofDraw {length n : Nat} {c : Char} (hc : c ∈ (ofDraw length n).text) :
    c ∈ lowerHexDigits :=
  randomDigits_subset n (List.mem_of_mem_take hc)

theorem length_ofDraw (length n : Nat) :
    (ofDraw length n).text.length = min (max length 1) 32 := by
  rw [ofDraw, List.length_take]
  have hle := le_length_randomDigits n
  omega

/-- The text of a random id names this id. -/
theorem ofText?_ofDraw (length n : Nat) :
    ofText? (ofDraw length n).text = some (ofDraw length n) := by
  have hspace : lowerHexDigits.all (fun c => isWhitespace c == false) = true := by decide
  have htrim : Text.trim (ofDraw length n).text = (ofDraw length n).text :=
    Text.trim_of_no_space fun c hc =>
      eq_of_beq (List.all_eq_true.1 hspace c (mem_digits_ofDraw hc))
  have hne : (ofDraw length n).text.isEmpty = false := by
    rw [List.isEmpty_eq_false_iff, ← List.length_pos_iff, length_ofDraw]
    omega
  simp [ofText?, htrim, hne]

end SnippetId

end CodeSnippets
