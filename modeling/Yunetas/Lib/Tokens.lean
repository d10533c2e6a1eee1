import Mathlib.Data.List.Basic

/-!
# Tokens

`strtok_r` called to its end gives the pieces of a text between delimiters, without the empty
ones. Pieces that hold no delimiter and are not empty, joined by any delimiters, are the tokens of
the joined text.
-/

namespace Yunetas

open List

variable {α : Type}

/-- The tokens of a text, as `strtok_r` gives them one by one. -/
def tokens (delim : α → Bool) (text : List α) : List (List α) :=
  (text.splitOnP delim).filter fun piece => !piece.isEmpty

/-- A piece that can be a token: not empty and without delimiters. -/
structure IsToken (delim : α → Bool) (piece : List α) : Prop where
  nonempty : piece ≠ []
  plain : ∀ char ∈ piece, delim char = false

/-- The text behind the first piece: each further piece after a delimiter. -/
def joined : List (α × List α) → List α
  | [] => []
  | (delimiter, piece) :: rest => delimiter :: piece ++ joined rest

@[simp] theorem tokens_nil (delim : α → Bool) : tokens delim [] = [] := rfl

variable {delim : α → Bool}

theorem tokens_append_delim {piece : List α} {char : α}
    (token : IsToken delim piece) (is : delim char = true) (text : List α) :
    tokens delim (piece ++ char :: text) = piece :: tokens delim text := by
  have some : (!piece.isEmpty) = true := by simpa using token.nonempty
  unfold tokens
  rw [splitOnP_append_cons_of_forall_mem token.plain char is, filter_cons, if_pos some]

theorem tokens_single {piece : List α} (token : IsToken delim piece) :
    tokens delim piece = [piece] := by
  have some : (!piece.isEmpty) = true := by simpa using token.nonempty
  unfold tokens
  rw [splitOnP_eq_singleton token.plain, filter_cons, if_pos some, filter_nil]

theorem tokens_joined {first : List α} {rest : List (α × List α)} (token : IsToken delim first)
    (others : ∀ entry ∈ rest, delim entry.1 = true ∧ IsToken delim entry.2) :
    tokens delim (first ++ joined rest) = first :: rest.map Prod.snd := by
  induction rest generalizing first with
  | nil => rw [joined, append_nil, tokens_single token, map_nil]
  | cons entry rest ih =>
    have here := others entry mem_cons_self
    have later := ih here.2 fun other among => others other (mem_cons_of_mem _ among)
    have text : first ++ joined (entry :: rest) = first ++ entry.1 :: (entry.2 ++ joined rest) := rfl
    rw [text, tokens_append_delim token here.1, later, map_cons]

theorem plain_of_mem_splitOnP {text piece : List α}
    (among : piece ∈ text.splitOnP delim) : ∀ char ∈ piece, delim char = false := by
  induction text generalizing piece with
  | nil =>
    rw [splitOnP_nil, mem_singleton] at among
    rw [among]
    nofun
  | cons head tail ih =>
    rw [splitOnP_cons_eq_if_modifyHead] at among
    split at among
    · rcases mem_cons.1 among with rfl | among
      · nofun
      · exact ih among
    · rename_i other
      cases pieces : tail.splitOnP delim with
      | nil => exact absurd pieces (splitOnP_ne_nil delim tail)
      | cons first more =>
        rw [pieces, modifyHead_cons] at among
        rw [pieces] at ih
        rcases mem_cons.1 among with rfl | among
        · intro char inside
          rcases mem_cons.1 inside with rfl | inside
          · exact Bool.eq_false_iff.2 other
          · exact ih mem_cons_self char inside
        · exact ih (mem_cons_of_mem _ among)

end Yunetas
