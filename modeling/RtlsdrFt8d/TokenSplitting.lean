import Mathlib.Data.List.TakeWhile

/-!
# Splitting a text into words with `strtok`

The C function `strtok` hands out the maximal delimiter-free pieces of a text
one at a time.  This file gives its single call as a function on lists, the
list of all pieces, and the laws that relate the two.  The alphabet and the
delimiter set are arbitrary.
-/

namespace TokenSplitting

variable {α : Type*}

/-- One call of `strtok`: skip leading delimiters, return the following
delimiter-free piece, and keep what comes after the delimiter that ends it. -/
def strtok (delim : α → Bool) (text : List α) : Option (List α) × List α :=
  match text.dropWhile delim with
  | [] => (none, [])
  | start =>
      (some (start.takeWhile (fun symbol => !delim symbol)),
        (start.dropWhile (fun symbol => !delim symbol)).drop 1)

/-- All the pieces that successive `strtok` calls return. -/
def tokens (delim : α → Bool) (text : List α) : List (List α) :=
  (text.splitOnP delim).filter (fun piece => !piece.isEmpty)

/-- A nonempty text without delimiters. -/
def IsWord (delim : α → Bool) (text : List α) : Prop :=
  text ≠ [] ∧ ∀ symbol ∈ text, delim symbol = false

instance (delim : α → Bool) [DecidableEq α] (text : List α) :
    Decidable (IsWord delim text) :=
  inferInstanceAs (Decidable (_ ∧ _))

variable {delim : α → Bool}

@[simp]
theorem tokens_nil : tokens delim [] = [] := by
  simp [tokens]

@[simp]
theorem tokens_cons_of_delim {separator : α} (isDelim : delim separator = true)
    (text : List α) :
    tokens delim (separator :: text) = tokens delim text := by
  simp [tokens, List.splitOnP_cons_eq_if_modifyHead, isDelim]

/-- A delimiter separates the pieces on its left from those on its right. -/
theorem tokens_append_cons {separator : α} (isDelim : delim separator = true)
    (left right : List α) :
    tokens delim (left ++ separator :: right) =
      tokens delim left ++ tokens delim right := by
  simp [tokens, List.splitOnP_append_cons _ _ isDelim]

theorem tokens_of_isWord {word : List α} (isWord : IsWord delim word) :
    tokens delim word = [word] := by
  simp [tokens, List.splitOnP_eq_singleton isWord.2, isWord.1]

theorem tokens_dropWhile (text : List α) :
    tokens delim (text.dropWhile delim) = tokens delim text := by
  induction text with
  | nil => rfl
  | cons symbol text ih =>
      cases isDelim : delim symbol with
      | true => simpa [List.dropWhile_cons, isDelim] using ih
      | false => simp [isDelim]

theorem mem_splitOnP_not_delim {text piece : List α}
    (pieceMem : piece ∈ text.splitOnP delim) :
    ∀ symbol ∈ piece, delim symbol = false := by
  induction text generalizing piece with
  | nil => simp_all
  | cons head text ih =>
      rw [List.splitOnP_cons_eq_if_modifyHead] at pieceMem
      cases isDelim : delim head with
      | true =>
          simp only [isDelim, if_true, List.mem_cons] at pieceMem
          rcases pieceMem with rfl | laterPiece
          · simp
          · exact ih laterPiece
      | false =>
          obtain ⟨first, rest, split⟩ :=
            List.exists_cons_of_ne_nil (List.splitOnP_ne_nil delim text)
          simp only [isDelim, Bool.false_eq_true, if_false, split,
            List.modifyHead_cons, List.mem_cons] at pieceMem
          rcases pieceMem with rfl | laterPiece
          · intro symbol symbolMem
            rcases List.mem_cons.mp symbolMem with rfl | inFirst
            · exact isDelim
            · exact ih (by simp [split]) symbol inFirst
          · exact ih (by simp [split, laterPiece])

theorem isWord_of_mem_tokens {text piece : List α}
    (pieceMem : piece ∈ tokens delim text) : IsWord delim piece := by
  obtain ⟨inSplit, nonempty⟩ := List.mem_filter.mp pieceMem
  exact ⟨by simpa using nonempty, mem_splitOnP_not_delim inSplit⟩

/-- A text that starts with a word followed by a delimiter has this word as
its first piece. -/
theorem tokens_word_append_cons {word : List α} (isWord : IsWord delim word)
    {separator : α} (isDelim : delim separator = true) (rest : List α) :
    tokens delim (word ++ separator :: rest) = word :: tokens delim rest := by
  rw [tokens_append_cons isDelim, tokens_of_isWord isWord, List.singleton_append]

/-- A text that starts inside a word gives this word first, then the pieces
after the delimiter that ends it. -/
private theorem tokens_of_head_not_delim {head : α} {tail : List α}
    (headNotDelim : delim head = false) :
    tokens delim (head :: tail) =
      (head :: tail).takeWhile (fun symbol => !delim symbol) ::
        tokens delim
          (((head :: tail).dropWhile (fun symbol => !delim symbol)).drop 1) := by
  have firstIsWord :
      IsWord delim ((head :: tail).takeWhile (fun symbol => !delim symbol)) := by
    refine ⟨by simp [headNotDelim], ?_⟩
    intro symbol symbolMem
    simpa using List.mem_takeWhile_imp symbolMem
  have split := List.takeWhile_append_dropWhile
    (p := fun symbol => !delim symbol) (l := head :: tail)
  cases remaining : (head :: tail).dropWhile (fun symbol => !delim symbol) with
  | nil =>
      rw [remaining, List.append_nil] at split
      rw [split] at firstIsWord ⊢
      simpa using tokens_of_isWord firstIsWord
  | cons separator rest =>
      have separatorIsDelim : delim separator = true := by
        have notWord := List.head?_dropWhile_not
          (fun symbol => !delim symbol) (head :: tail)
        simpa [remaining] using notWord
      rw [remaining] at split
      calc
        tokens delim (head :: tail) =
            tokens delim ((head :: tail).takeWhile (fun symbol => !delim symbol) ++
              separator :: rest) := congrArg (tokens delim) split.symm
        _ = _ := tokens_word_append_cons firstIsWord separatorIsDelim rest

theorem exists_tokens_of_head_not_delim {head : α} {tail : List α}
    (headNotDelim : delim head = false) :
    ∃ word rest, tokens delim (head :: tail) = (head :: word) :: rest := by
  rw [tokens_of_head_not_delim headNotDelim, List.takeWhile_cons_of_pos (by simp [headNotDelim])]
  exact ⟨_, _, rfl⟩

/-- The first call returns the first piece and leaves the remaining ones. -/
theorem strtok_spec (text : List α) :
    (strtok delim text).1 = (tokens delim text).head? ∧
      tokens delim (strtok delim text).2 = (tokens delim text).tail := by
  rw [← tokens_dropWhile text]
  cases dropped : text.dropWhile delim with
  | nil => simp [strtok, dropped]
  | cons head tail =>
      have headNotDelim : delim head = false := by
        have notDelim := List.head?_dropWhile_not delim text
        simpa [dropped] using notDelim
      simp only [strtok, dropped, tokens_of_head_not_delim headNotDelim]
      exact ⟨rfl, rfl⟩

theorem strtok_fst (text : List α) :
    (strtok delim text).1 = (tokens delim text).head? :=
  (strtok_spec text).1

theorem tokens_strtok_snd (text : List α) :
    tokens delim (strtok delim text).2 = (tokens delim text).tail :=
  (strtok_spec text).2

theorem mem_of_mem_strtok_snd {text : List α} {symbol : α}
    (symbolMem : symbol ∈ (strtok delim text).2) : symbol ∈ text := by
  unfold strtok at symbolMem
  split at symbolMem
  · simp at symbolMem
  · exact (List.dropWhile_suffix delim).subset
      ((List.dropWhile_suffix _).subset (List.mem_of_mem_drop symbolMem))

theorem tokens_congr {other : α → Bool} {text : List α}
    (agree : ∀ symbol ∈ text, delim symbol = other symbol) :
    tokens delim text = tokens other text := by
  suffices text.splitOnP delim = text.splitOnP other by rw [tokens, this, tokens]
  induction text with
  | nil => rfl
  | cons head text ih =>
      simp only [List.mem_cons, forall_eq_or_imp] at agree
      rw [List.splitOnP_cons_eq_if_modifyHead, List.splitOnP_cons_eq_if_modifyHead,
        agree.1, ih agree.2]

end TokenSplitting
