import Mathlib.Data.List.Nodup
import HotComponents.ModuleId.Query
import HotComponents.Proofs.Text.Escapes

/-!
# Queries as text

A query that was read has each key at most once, and the text of such a query reads as the query
again: every flag is written in the one form that reads as it, and the pieces between the `&` are
read one by one.

* `Query.distinct_of_parse`: no key stands twice in a query that was read;
* `Query.parse_text`: what is written for a query reads as the query.
-/

namespace HotComponents

namespace Text

/-- A text without `+` and `%` reads as it stands in a form. -/
theorem formText_of_notMem {cs : List Char} (hplus : '+' ∉ cs) (hpercent : '%' ∉ cs) :
    formText cs = cs := by
  have hkept : (cs.map fun c => if c = '+' then ' ' else c) = cs := by
    conv_rhs => rw [← List.map_id cs]
    refine List.map_congr_left fun c hc => ?_
    have hother : c ≠ '+' := fun h => hplus (h ▸ hc)
    rw [if_neg hother, id]
  rw [formText, hkept, percentDecode_of_notMem hpercent]

end Text

namespace ModuleId

open Text

/-! ## One flag -/

/-- The key and the value that a flag is written with. -/
def Flag.pair : Flag → List Char × List Char
  | artifact a => (FlagKey.type.text.toList, a.text.toList)
  | flag => (flag.key.text.toList, [])

/-- What is written for a flag is one piece. -/
theorem Flag.formPairs_text (flag : Flag) : formPairs flag.text.toList = [flag.pair] := by
  have hplain : ∀ cs ∈ [flag.pair.1, flag.pair.2], '+' ∉ cs ∧ '%' ∉ cs := by
    cases flag <;> first | decide | (next a => cases a; decide)
  have hkey := formText_of_notMem (hplain flag.pair.1 (by simp)).1 (hplain flag.pair.1 (by simp)).2
  have hvalue := formText_of_notMem (hplain flag.pair.2 (by simp)).1 (hplain flag.pair.2 (by simp)).2
  have hpieces : (splitOn '&' flag.text.toList).filter (fun piece => !piece.isEmpty) =
      [flag.text.toList] := by
    cases flag <;> first | decide | (next a => cases a; decide)
  have hcut : (splitFirst? '=' flag.text.toList).getD (flag.text.toList, []) = flag.pair := by
    cases flag <;> first | decide | (next a => cases a; decide)
  rw [formPairs, hpieces, List.map_singleton, formPair, hcut]
  simp only [hkey, hvalue]

/-- The piece reads as the flag. -/
theorem Flag.ofPair_pair (flag : Flag) : Flag.ofPair flag.pair.1 flag.pair.2 = .ok (some flag) := by
  cases flag with
  | artifact a => cases a; rfl
  | _ => rfl

/-- Different flags are written as different pieces. -/
theorem Flag.pair_inj {flag other : Flag} (h : flag.pair = other.pair) : flag = other := by
  have hread := flag.ofPair_pair
  rw [h, other.ofPair_pair] at hread
  exact (Option.some.inj (Except.ok.inj hread)).symm

namespace Query

/-! ## Keys stand once -/

/-- No key stands twice. -/
def Distinct (q : Query) : Prop := (q.flags.map Flag.key).Nodup

theorem push_eq_ok_iff {q q' : Query} {flag : Flag} :
    q.push flag = .ok q' ↔ flag.key ∉ q.flags.map Flag.key ∧ q' = ⟨q.flags ++ [flag]⟩ := by
  have hold : (q.flags.any fun f => f.key == flag.key) = true ↔ flag.key ∈ q.flags.map Flag.key := by
    simp
  rw [push]
  split
  · next htwice => simp [hold.1 htwice]
  · next honce => simp only [Except.ok.injEq, mt hold.2 honce, not_false_eq_true, true_and, eq_comm]

theorem distinct_empty : Distinct empty := List.nodup_nil

/-- A pair adds nothing, or a flag whose key is new. -/
theorem distinct_pushPair {q q' : Query} {pair : List Char × List Char} (hq : q.Distinct)
    (h : q.pushPair pair = .ok q') : q'.Distinct := by
  unfold pushPair at h
  cases hread : Flag.ofPair pair.1 pair.2 with
  | error e => simp [hread, bind, Except.bind] at h
  | ok flag? =>
    simp only [hread, bind, Except.bind] at h
    cases flag? with
    | none => exact (Except.ok.inj h) ▸ hq
    | some flag =>
      obtain ⟨hfresh, rfl⟩ := push_eq_ok_iff.1 h
      rw [Distinct, List.map_append]
      refine List.nodup_append.2 ⟨hq, List.nodup_singleton _, ?_⟩
      intro key hkey other hother
      rw [List.mem_singleton.1 hother]
      exact fun hsame => hfresh (hsame ▸ hkey)

/-- No key stands twice in a query that was read. -/
theorem distinct_of_parse {raw : String} {q : Query} (h : parse raw = .ok q) : q.Distinct := by
  have hrun : ∀ (pairs : List (List Char × List Char)) (start : Query), start.Distinct →
      pairs.foldlM pushPair start = .ok q → q.Distinct := by
    intro pairs
    induction pairs with
    | nil => exact fun start hstart h => (Except.ok.inj h) ▸ hstart
    | cons pair pairs ih =>
      intro start hstart h
      rw [List.foldlM_cons] at h
      cases hnext : start.pushPair pair with
      | error e => simp [hnext, bind, Except.bind] at h
      | ok between =>
        simp only [hnext, bind, Except.bind] at h
        exact ih between (distinct_pushPair hstart hnext) h
  exact hrun _ empty distinct_empty h

/-! ## Reading what was written -/

/-- A flag's own piece adds the flag to a query that has not its key. -/
theorem pushPair_pair {q : Query} {flag : Flag} (hfresh : flag.key ∉ q.flags.map Flag.key) :
    q.pushPair flag.pair = .ok ⟨q.flags ++ [flag]⟩ := by
  simp only [pushPair, Flag.ofPair_pair, bind, Except.bind]
  exact push_eq_ok_iff.2 ⟨hfresh, rfl⟩

/-- The flags' own pieces add the flags, one by one. -/
theorem foldlM_pair (flags : List Flag) (q : Query)
    (hdistinct : ((q.flags ++ flags).map Flag.key).Nodup) :
    (flags.map Flag.pair).foldlM pushPair q = .ok ⟨q.flags ++ flags⟩ := by
  induction flags generalizing q with
  | nil => simp [pure, Except.pure]
  | cons flag flags ih =>
    have hfresh : flag.key ∉ q.flags.map Flag.key := by
      intro hold
      rw [List.map_append] at hdistinct
      exact List.disjoint_of_nodup_append hdistinct hold (by simp)
    have hrest : (((q.flags ++ [flag]) ++ flags).map Flag.key).Nodup := by simpa using hdistinct
    rw [List.map_cons, List.foldlM_cons, pushPair_pair hfresh]
    simpa [bind, Except.bind] using ih ⟨q.flags ++ [flag]⟩ hrest

/-- The pieces between the `&` are read one by one. -/
theorem formPairs_intercalate (pieces : List (List Char)) :
    formPairs (['&'].intercalate pieces) = pieces.flatMap formPairs := by
  induction pieces with
  | nil => rfl
  | cons piece pieces ih =>
    cases pieces with
    | nil => simp
    | cons next more =>
      rw [List.intercalate_cons_cons, List.append_assoc, List.singleton_append, formPairs_append,
        ih, ← List.flatMap_cons]

/-- The pairs of what is written for a query are those of its flags, in their order. -/
theorem formPairs_text (q : Query) : formPairs q.text.toList = q.flags.map Flag.pair := by
  have hwritten : q.text.toList =
      ['&'].intercalate (q.flags.map fun flag => flag.text.toList) := by
    simp [text, String.toList_intercalate, Function.comp_def]
  rw [hwritten, formPairs_intercalate, List.flatMap_map]
  simp only [Flag.formPairs_text, List.map_eq_flatMap]

/-- What is written for a query reads as the query. -/
theorem parse_text {q : Query} (hdistinct : q.Distinct) : parse q.text = .ok q := by
  have hread := foldlM_pair q.flags empty (by simpa [empty, Distinct] using hdistinct)
  rw [parse, ofPairs, formPairs_text, hread]
  simp [empty]

end Query

end ModuleId

end HotComponents
