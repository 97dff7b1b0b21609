/-!
# Cutting text into parts

Cuts at a separator character, at the first occurrence of a word, and into lines, over
`List Char`, so that each has an equation a proof can use.

* `splitOn_ne_nil`: a cut at every separator always gives at least one part;
* `intercalate_splitOn`: putting the separators back gives the text again;
* `stripPrefix?_eq_some_iff`: a prefix is stripped exactly when the text is the prefix and a rest;
* `length_snd_of_splitAround?`: what follows an occurrence is shorter than the text.
-/

namespace HotComponents.Text

/-! ## Separators -/

/-- The parts of a list between the occurrences of `sep`; a list without `sep` is one part. -/
def splitOn {α : Type} [DecidableEq α] (sep : α) : List α → List (List α)
  | [] => [[]]
  | c :: cs =>
    if c = sep then [] :: splitOn sep cs
    else
      match splitOn sep cs with
      | [] => [[c]]
      | part :: parts => (c :: part) :: parts

/-- The text before the first `sep` and the text after it. -/
def splitFirst? (sep : Char) : List Char → Option (List Char × List Char)
  | [] => none
  | c :: cs =>
    if c = sep then some ([], cs)
    else (splitFirst? sep cs).map fun (before, after) => (c :: before, after)

theorem splitOn_ne_nil {α : Type} [DecidableEq α] (sep : α) (cs : List α) : splitOn sep cs ≠ [] := by
  cases cs with
  | nil => simp [splitOn]
  | cons c cs =>
    rw [splitOn]
    split
    · simp
    · split <;> simp

/-- Putting the separators back gives the text again. -/
theorem intercalate_splitOn {α : Type} [DecidableEq α] (sep : α) (cs : List α) :
    List.intercalate [sep] (splitOn sep cs) = cs := by
  induction cs with
  | nil => simp [splitOn]
  | cons c cs ih =>
    rw [splitOn]
    have hne := splitOn_ne_nil sep cs
    split
    · next h =>
      subst h
      cases hs : splitOn c cs with
      | nil => exact absurd hs hne
      | cons p ps => rw [hs] at ih; simp [List.intercalate, List.intersperse] at ih ⊢; exact ih
    · -- The character joins the first part, behind which the rest is as it was.
      cases hs : splitOn sep cs with
      | nil => exact absurd hs hne
      | cons p ps =>
        rw [hs] at ih
        cases ps with
        | nil => simp_all [List.intercalate]
        | cons q qs => simp_all [List.intercalate, List.intersperse]

/-- No part holds the separator. -/
theorem sep_notMem_of_mem_splitOn {α : Type} [DecidableEq α] {sep : α} {cs part : List α}
    (h : part ∈ splitOn sep cs) : sep ∉ part := by
  induction cs generalizing part with
  | nil => simp_all [splitOn]
  | cons c cs ih =>
    rw [splitOn] at h
    split at h
    · -- The first part has the character in front, which is not the separator.
      rcases List.mem_cons.1 h with rfl | h
      · simp
      · exact ih h
    · next hc =>
      split at h
      · rw [List.mem_singleton.1 h]
        simp [Ne.symm hc]
      · next p ps hs =>
        rcases List.mem_cons.1 h with rfl | h
        · have := @ih p (by simp [hs])
          simp [Ne.symm hc, this]
        · exact ih (by simp [hs, h])

/-! ## Words -/

/-- The rest of a text that starts with `word`. -/
def stripPrefix? : List Char → List Char → Option (List Char)
  | [], cs => some cs
  | _ :: _, [] => none
  | w :: ws, c :: cs => if w = c then stripPrefix? ws cs else none

/-- The beginning of a text that ends with `word`. -/
def stripSuffix? (word cs : List Char) : Option (List Char) :=
  (stripPrefix? word.reverse cs.reverse).map List.reverse

/-- The text before the first occurrence of `word` and the text after that occurrence. -/
def splitAround? (word : List Char) : List Char → Option (List Char × List Char)
  | [] => if word = [] then some ([], []) else none
  | c :: cs =>
    match stripPrefix? word (c :: cs) with
    | some after => some ([], after)
    | none => (splitAround? word cs).map fun (before, after) => (c :: before, after)

theorem stripPrefix?_eq_some_iff {word cs rest : List Char} :
    stripPrefix? word cs = some rest ↔ cs = word ++ rest := by
  induction word generalizing cs with
  | nil => simp [stripPrefix?]
  | cons w ws ih =>
    cases cs with
    | nil => simp [stripPrefix?]
    | cons c cs =>
      simp only [stripPrefix?, List.cons_append, List.cons.injEq]
      split
      · next h => simp [ih, h]
      · next h => simp [eq_comm, h]

/-- What follows an occurrence of a nonempty word is shorter than the text. -/
theorem length_snd_of_splitAround? {word cs before after : List Char} (hw : word ≠ [])
    (h : splitAround? word cs = some (before, after)) : after.length < cs.length := by
  induction cs generalizing before with
  | nil => simp_all [splitAround?]
  | cons c cs ih =>
    rw [splitAround?] at h
    split at h
    · next rest hs =>
      simp only [Option.some.injEq, Prod.mk.injEq] at h
      obtain ⟨rfl, rfl⟩ := h
      have := congrArg List.length (stripPrefix?_eq_some_iff.1 hs)
      -- The word itself is gone, and it is not empty.
      have : 0 < word.length := List.length_pos_iff.2 hw
      simp_all
    · obtain ⟨⟨b, a⟩, hb, heq⟩ := Option.map_eq_some_iff.1 h
      simp only [Prod.mk.injEq] at heq
      obtain ⟨_, rfl⟩ := heq
      have := ih hb
      simp
      omega

/-! ## Lines -/

/-- A line without the carriage return that may stand before its end. -/
def dropCarriageReturn (line : List Char) : List Char :=
  (stripSuffix? ['\r'] line).getD line

/-- The lines of a text: each ends at a line feed, and a text that ends in one has no empty line
after it. -/
def lines (cs : List Char) : List (List Char) :=
  let parts := splitOn '\n' cs
  match parts.getLast? with
  | some [] => parts.dropLast.map dropCarriageReturn
  | some last => parts.dropLast.map dropCarriageReturn ++ [last]
  | none => []

end HotComponents.Text
