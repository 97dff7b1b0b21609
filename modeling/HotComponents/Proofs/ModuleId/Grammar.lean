import HotComponents.Proofs.ModuleId.RoundTrip
import Mathlib.Data.List.Induction

/-!
# What queries are accepted

Of the pairs of a query only those with tracked keys count. They follow the grammar when each `type`
names a stylesheet, no other flag has a value but `true`, and no key stands twice. Such a query reads
as its flags in their order. Any other is refused for the first pair that does not fit behind those
before it, and for its value first. Whatever else stands in a query makes no difference.

* `pushPair_of_fits`, `pushPair_of_offends`: what one more pair makes of a query;
* `ofPairs_of_grammatical`, `ofPairs_of_offends`: what all pairs make of it;
* `grammatical_or_offends`: there is no third case;
* `query_reads_exactly_its_grammar`: which queries are accepted, as what, and with which error not.
-/

namespace HotComponents.ModuleId

open Text

/-! ## Pairs with tracked keys -/

/-- The key of the pair is tracked. -/
def isTracked (pair : List Char × List Char) : Bool := (FlagKey.ofChars? pair.1).isSome

/-- The pairs of a query that have tracked keys, in order. -/
def Query.tracked (raw : String) : List (List Char × List Char) :=
  (formPairs raw.toList).filter isTracked

theorem FlagKey.ofChars?_eq_some_iff {cs : List Char} {k : FlagKey} :
    FlagKey.ofChars? cs = some k ↔ cs = k.text.toList := by
  constructor
  · intro hfound
    have hsame := List.find?_some hfound
    exact (beq_iff_eq.1 hsame).symm
  · rintro rfl
    cases k <;> rfl

theorem isTracked_iff {pair : List Char × List Char} :
    isTracked pair ↔ ∃ k : FlagKey, pair.1 = k.text.toList := by
  simp only [isTracked, Option.isSome_iff_exists, FlagKey.ofChars?_eq_some_iff]

/-- The text of a key belongs to it alone. -/
theorem FlagKey.text_inj {k l : FlagKey} (h : k.text.toList = l.text.toList) : k = l := by
  have hfound := FlagKey.ofChars?_eq_some_iff.2 h
  rw [FlagKey.ofChars?_eq_some_iff.2 rfl] at hfound
  exact Option.some.inj hfound

namespace Query

/-! ## The grammar -/

/-- The value is one that a flag with the key can have: `type` names a stylesheet, and any other flag
has no value or `true`. -/
def Takes (key value : List Char) : Prop :=
  if key = "type".toList then value = "style".toList else value = [] ∨ value = "true".toList
deriving Decidable

/-- The pairs follow the grammar. -/
structure Grammatical (pairs : List (List Char × List Char)) : Prop where
  /-- Each has a value that its key takes. -/
  values : ∀ pair ∈ pairs, Takes pair.1 pair.2
  /-- No key stands twice. -/
  keys : (pairs.map Prod.fst).Nodup

/-- What is said of a pair that does not fit behind others: that its key does not take its value, or
else that its key is there already. -/
inductive Offends (before : List (List Char × List Char)) :
    List Char × List Char → QueryError → Prop where
  | unknownType {value : List Char} (hrefused : ¬Takes FlagKey.type.text.toList value) :
      Offends before (FlagKey.type.text.toList, value) (.unknownType (String.ofList value))
  | unexpectedValue {k : FlagKey} {value : List Char} (hnotType : k ≠ .type)
      (hrefused : ¬Takes k.text.toList value) :
      Offends before (k.text.toList, value) (.unexpectedValue k)
  | duplicate {k : FlagKey} {value : List Char} (htaken : Takes k.text.toList value)
      (hold : k.text.toList ∈ before.map Prod.fst) :
      Offends before (k.text.toList, value) (.duplicate k)

/-- The query has a flag for each pair, with its key. -/
def Names (q : Query) (pairs : List (List Char × List Char)) : Prop :=
  q.flags.map (fun flag => flag.key.text.toList) = pairs.map Prod.fst

/-! ## One more pair -/

/-- A pair whose key takes its value is the pair of a flag. -/
theorem exists_flag_of_takes {k : FlagKey} {value : List Char} (htaken : Takes k.text.toList value) :
    ∃ flag : Flag, flag.key = k ∧ Flag.ofPair k.text.toList value = .ok (some flag) := by
  unfold Flag.ofPair
  rw [FlagKey.ofChars?_eq_some_iff.2 rfl]
  cases k with
  | type =>
    have hstyle : value = Artifact.style.text.toList := htaken
    exact ⟨.artifact .style, rfl, by simp [Flag.ofKey?, Artifact.ofChars?, hstyle]⟩
  | _ => exact ⟨_, rfl, if_pos htaken⟩

theorem mem_keys_iff {q : Query} {pairs : List (List Char × List Char)} (hnames : q.Names pairs)
    (k : FlagKey) : k ∈ q.flags.map Flag.key ↔ k.text.toList ∈ pairs.map Prod.fst := by
  rw [← hnames, ← Function.comp_def (fun k : FlagKey => k.text.toList), ← List.map_map,
    List.mem_map_of_injective fun _ _ => FlagKey.text_inj]

section OnePair

variable {q : Query} {before : List (List Char × List Char)} {pair : List Char × List Char}

theorem pushPair_of_not_tracked (hforeign : ¬isTracked pair) : q.pushPair pair = .ok q := by
  have hpassed : Flag.ofPair pair.1 pair.2 = .ok none := by
    rw [Flag.ofPair_eq_ok_none_iff]
    simpa [isTracked] using hforeign
  simp only [pushPair, hpassed, bind, Except.bind, pure, Except.pure]

/-- A pair that fits behind others adds a flag with its key. -/
theorem pushPair_of_fits (hnames : q.Names before) (htracked : isTracked pair)
    (htaken : Takes pair.1 pair.2) (hnew : pair.1 ∉ before.map Prod.fst) :
    ∃ q', q.pushPair pair = .ok q' ∧ q'.Names (before ++ [pair]) := by
  obtain ⟨key, value⟩ := pair
  obtain ⟨k, rfl⟩ := isTracked_iff.1 htracked
  obtain ⟨flag, rfl, hread⟩ := exists_flag_of_takes htaken
  refine ⟨⟨q.flags ++ [flag]⟩, ?_, ?_⟩
  · simp only [pushPair, hread, bind, Except.bind]
    exact push_eq_ok_iff.2 ⟨mt (mem_keys_iff hnames _).1 hnew, rfl⟩
  · rw [Names, List.map_append, List.map_append, hnames, List.map_singleton, List.map_singleton]

/-- A pair that does not fit is refused. -/
theorem pushPair_of_offends {e : QueryError} (hnames : q.Names before)
    (hoffends : Offends before pair e) : q.pushPair pair = .error e := by
  cases hoffends with
  | @unknownType value hrefused =>
    have hunknown : Artifact.ofChars? value = none := by
      unfold Artifact.ofChars?
      exact if_neg fun hstyle => hrefused hstyle.symm
    have hread : Flag.ofPair FlagKey.type.text.toList value =
        .error (.unknownType (String.ofList value)) := by
      unfold Flag.ofPair
      rw [FlagKey.ofChars?_eq_some_iff.2 rfl]
      simp only [Flag.ofKey?, hunknown]
    simp only [pushPair, hread, bind, Except.bind]
  | @unexpectedValue k value hnotType hrefused =>
    have hread : Flag.ofPair k.text.toList value = .error (.unexpectedValue k) := by
      unfold Flag.ofPair
      rw [FlagKey.ofChars?_eq_some_iff.2 rfl]
      cases k with
      | type => exact absurd rfl hnotType
      | _ => exact if_neg hrefused
    simp only [pushPair, hread, bind, Except.bind]
  | @duplicate k value htaken hold =>
    obtain ⟨flag, rfl, hread⟩ := exists_flag_of_takes htaken
    have htwice : (q.flags.any fun f => f.key == flag.key) = true := by
      simpa using (mem_keys_iff hnames flag.key).2 hold
    simp only [pushPair, hread, bind, Except.bind, push, htwice, if_true]

/-- A pair with a tracked key fits behind others, or something is said of it. -/
theorem fits_or_offends (before : List (List Char × List Char)) (htracked : isTracked pair) :
    Takes pair.1 pair.2 ∧ pair.1 ∉ before.map Prod.fst ∨ ∃ e, Offends before pair e := by
  obtain ⟨key, value⟩ := pair
  obtain ⟨k, rfl⟩ := isTracked_iff.1 htracked
  by_cases htaken : Takes k.text.toList value
  · by_cases hold : k.text.toList ∈ before.map Prod.fst
    · exact .inr ⟨_, .duplicate htaken hold⟩
    · exact .inl ⟨htaken, hold⟩
  · right
    by_cases htype : k = .type
    · subst htype
      exact ⟨_, .unknownType htaken⟩
    · exact ⟨_, .unexpectedValue htype htaken⟩

theorem grammatical_concat : Grammatical (before ++ [pair]) ↔
    Grammatical before ∧ Takes pair.1 pair.2 ∧ pair.1 ∉ before.map Prod.fst := by
  constructor
  · rintro ⟨hvalues, hkeys⟩
    rw [List.forall_mem_append] at hvalues
    rw [List.map_append, List.map_singleton, List.nodup_append] at hkeys
    refine ⟨⟨hvalues.1, hkeys.1⟩, hvalues.2 pair (List.mem_singleton.2 rfl), fun hold => ?_⟩
    exact hkeys.2.2 _ hold _ (List.mem_singleton.2 rfl) rfl
  · rintro ⟨⟨hvalues, hkeys⟩, htaken, hnew⟩
    constructor
    · rw [List.forall_mem_append]
      refine ⟨hvalues, fun other hother => ?_⟩
      rwa [List.mem_singleton.1 hother]
    · rw [List.map_append, List.map_singleton, List.nodup_append]
      refine ⟨hkeys, List.nodup_singleton _, fun key hkey other hother hsame => ?_⟩
      rw [List.mem_singleton.1 hother] at hsame
      exact hnew (hsame ▸ hkey)

end OnePair

/-! ## All pairs -/

/-- Pairs with other keys make no difference. -/
theorem foldlM_filter_isTracked (pairs : List (List Char × List Char)) (q : Query) :
    (pairs.filter isTracked).foldlM pushPair q = pairs.foldlM pushPair q := by
  induction pairs generalizing q with
  | nil => rfl
  | cons pair pairs ih =>
    by_cases htracked : isTracked pair
    · rw [List.filter_cons_of_pos htracked, List.foldlM_cons, List.foldlM_cons]
      exact congrArg _ (funext ih)
    · rw [List.filter_cons_of_neg htracked, List.foldlM_cons, pushPair_of_not_tracked htracked, ih]
      rfl

theorem parse_eq_ofPairs_tracked (raw : String) : parse raw = ofPairs (tracked raw) :=
  (foldlM_filter_isTracked _ _).symm

section AllPairs

variable {pairs : List (List Char × List Char)}

/-- Pairs that follow the grammar are read as flags with their keys. -/
theorem ofPairs_of_grammatical (htracked : ∀ pair ∈ pairs, isTracked pair)
    (hgrammatical : Grammatical pairs) : ∃ q, ofPairs pairs = .ok q ∧ q.Names pairs := by
  induction pairs using List.reverseRecOn with
  | nil => exact ⟨empty, rfl, rfl⟩
  | append_singleton before pair ih =>
    rw [List.forall_mem_append] at htracked
    obtain ⟨hearlier, htaken, hnew⟩ := grammatical_concat.1 hgrammatical
    obtain ⟨q, hread, hnames⟩ := ih htracked.1 hearlier
    obtain ⟨q', hpushed, hnames'⟩ :=
      pushPair_of_fits hnames (htracked.2 pair (List.mem_singleton.2 rfl)) htaken hnew
    refine ⟨q', ?_, hnames'⟩
    rw [ofPairs_append, hread]
    simp [Except.bind, hpushed, pure, Except.pure, bind]

/-- The first pair that does not fit is refused, whatever follows. -/
theorem ofPairs_of_offends {before after : List (List Char × List Char)}
    {pair : List Char × List Char} {e : QueryError} (htracked : ∀ pair ∈ before, isTracked pair)
    (hgrammatical : Grammatical before) (hoffends : Offends before pair e) :
    ofPairs (before ++ pair :: after) = .error e := by
  obtain ⟨q, hread, hnames⟩ := ofPairs_of_grammatical htracked hgrammatical
  rw [ofPairs_append, hread]
  simp only [Except.bind, List.foldlM_cons, pushPair_of_offends hnames hoffends, bind]

/-- Pairs follow the grammar, or one is the first that does not fit. -/
theorem grammatical_or_offends (htracked : ∀ pair ∈ pairs, isTracked pair) :
    Grammatical pairs ∨ ∃ before pair after e, pairs = before ++ pair :: after ∧
      Grammatical before ∧ Offends before pair e := by
  induction pairs using List.reverseRecOn with
  | nil => exact .inl ⟨nofun, List.nodup_nil⟩
  | append_singleton earlier last ih =>
    rw [List.forall_mem_append] at htracked
    rcases ih htracked.1 with hgrammatical | ⟨before, pair, after, e, rfl, hgrammatical, hoffends⟩
    · rcases fits_or_offends earlier (htracked.2 last (List.mem_singleton.2 rfl)) with
        hfits | ⟨e, hoffends⟩
      · exact .inl (grammatical_concat.2 ⟨hgrammatical, hfits⟩)
      · exact .inr ⟨earlier, last, [], e, rfl, hgrammatical, hoffends⟩
    · refine .inr ⟨before, pair, after ++ [last], e, ?_, hgrammatical, hoffends⟩
      rw [List.append_assoc, List.cons_append]

end AllPairs

theorem isTracked_of_mem_tracked {raw : String} : ∀ pair ∈ tracked raw, isTracked pair :=
  fun _ hpair => (List.mem_filter.1 hpair).2

/-- A query is read as the flags of its pairs that have tracked keys, if these follow the grammar. -/
theorem parse_of_grammatical {raw : String} (h : Grammatical (tracked raw)) :
    ∃ q, parse raw = .ok q ∧ q.Names (tracked raw) := by
  rw [parse_eq_ofPairs_tracked]
  exact ofPairs_of_grammatical isTracked_of_mem_tracked h

/-- It is refused for the first of them that does not fit. -/
theorem parse_of_offends {raw : String} {before after : List (List Char × List Char)}
    {pair : List Char × List Char} {e : QueryError} (hpairs : tracked raw = before ++ pair :: after)
    (hgrammatical : Grammatical before) (hoffends : Offends before pair e) :
    parse raw = .error e := by
  have htracked := @isTracked_of_mem_tracked raw
  rw [hpairs] at htracked
  rw [parse_eq_ofPairs_tracked, hpairs]
  exact ofPairs_of_offends (List.forall_mem_append.1 htracked).1 hgrammatical hoffends

/-- A query that is not refused follows the grammar. -/
theorem grammatical_of_parse {raw : String} {q : Query} (h : parse raw = .ok q) :
    Grammatical (tracked raw) := by
  rcases grammatical_or_offends (@isTracked_of_mem_tracked raw) with
    hgrammatical | ⟨before, pair, after, e, hpairs, hgrammatical, hoffends⟩
  · exact hgrammatical
  · cases h.symm.trans (parse_of_offends hpairs hgrammatical hoffends)

/-! ## Pieces that belong to others -/

/-- No pair of the piece has a tracked key. -/
def isForeign (piece : String) : Bool := (tracked piece).isEmpty

/-- The pairs with tracked keys are those of the pieces that are not foreign. -/
theorem tracked_intercalate (pieces : List String) :
    tracked ("&".intercalate pieces) =
      (pieces.filter fun piece => !isForeign piece).flatMap tracked := by
  have hjoined : tracked ("&".intercalate pieces) = pieces.flatMap tracked := by
    have htext : ("&".intercalate pieces).toList = ['&'].intercalate (pieces.map String.toList) := by
      simp [String.toList_intercalate]
    rw [tracked, htext, formPairs_intercalate, List.flatMap_map, List.filter_flatMap]
    rfl
  rw [hjoined]
  clear hjoined
  induction pieces with
  | nil => rfl
  | cons piece pieces ih =>
    rw [List.flatMap_cons, ih, List.filter_cons]
    cases hforeign : isForeign piece with
    | true =>
      rw [isForeign, List.isEmpty_iff] at hforeign
      simp [hforeign]
    | false => simp

end Query

/-- Only the file of an identifier and what its query reads as count. -/
theorem parse_congr {o : Options} {id id' : String} {target : Target} {timestamp : Option Nat}
    (hfile : (splitId id).1 = (splitId id').1)
    (hquery : (splitId id).2.elim (.ok .empty) Query.parse =
      (splitId id').2.elim (.ok .empty) Query.parse) :
    parse o id target timestamp = parse o id' target timestamp := by
  simp only [parse, read, hfile, hquery]

theorem splitId_append {file : String} (hnoQuestion : '?' ∉ file.toList) (raw : String) :
    splitId (file ++ "?" ++ raw) = (file, some raw) := by
  have hcut := splitFirst?_append hnoQuestion raw.toList
  simp only [splitId, String.toList_append, List.append_assoc]
  rw [show "?".toList = ['?'] from rfl, List.singleton_append, hcut]
  simp only [String.ofList_toList]

theorem splitId_of_notMem {file : String} (hnoQuestion : '?' ∉ file.toList) :
    splitId file = (file, none) := by
  rw [splitId, splitFirst?_of_notMem hnoQuestion]

/-- A query is accepted exactly if its pairs with tracked keys follow the grammar, and reads as flags
with their keys in their order, as does what is written for these flags; any other is refused for
the first of them that does not fit behind those before it. So nothing that an identifier reads as
depends on the pieces of its query that are foreign, or on a query made only of them. -/
theorem query_reads_exactly_its_grammar :
    (∀ raw, (∃ q, Query.parse raw = .ok q) ↔ Query.Grammatical (Query.tracked raw)) ∧
    (∀ raw q, Query.parse raw = .ok q →
      q.Names (Query.tracked raw) ∧ Query.parse q.text = .ok q) ∧
    (∀ raw e, Query.parse raw = .error e ↔
      ∃ before pair after, Query.tracked raw = before ++ pair :: after ∧
        Query.Grammatical before ∧ Query.Offends before pair e) ∧
    (∀ (o : Options) (file : String) (pieces pieces' : List String) (target : Target)
      (timestamp : Option Nat), '?' ∉ file.toList →
      (pieces.filter fun piece => !Query.isForeign piece) =
        (pieces'.filter fun piece => !Query.isForeign piece) →
      parse o (file ++ "?" ++ "&".intercalate pieces) target timestamp =
        parse o (file ++ "?" ++ "&".intercalate pieces') target timestamp) ∧
    ∀ (o : Options) (file : String) (pieces : List String) (target : Target)
      (timestamp : Option Nat), '?' ∉ file.toList → (∀ piece ∈ pieces, Query.isForeign piece) →
      parse o (file ++ "?" ++ "&".intercalate pieces) target timestamp =
        parse o file target timestamp := by
  refine ⟨?_, ?_, ?_, ?_, ?_⟩
  · intro raw
    constructor
    · rintro ⟨q, hread⟩
      exact Query.grammatical_of_parse hread
    · intro hgrammatical
      obtain ⟨q, hread, _⟩ := Query.parse_of_grammatical hgrammatical
      exact ⟨q, hread⟩
  · intro raw q hread
    obtain ⟨q', hread', hnames⟩ := Query.parse_of_grammatical (Query.grammatical_of_parse hread)
    obtain rfl := Except.ok.inj (hread.symm.trans hread')
    exact ⟨hnames, Query.parse_text (Query.distinct_of_parse hread)⟩
  · intro raw e
    constructor
    · intro hrefused
      rcases Query.grammatical_or_offends (@Query.isTracked_of_mem_tracked raw) with
        hgrammatical | ⟨before, pair, after, e', hpairs, hgrammatical, hoffends⟩
      · obtain ⟨q, hread, _⟩ := Query.parse_of_grammatical hgrammatical
        cases hrefused.symm.trans hread
      · obtain rfl := Except.error.inj
          (hrefused.symm.trans (Query.parse_of_offends hpairs hgrammatical hoffends))
        exact ⟨before, pair, after, hpairs, hgrammatical, hoffends⟩
    · rintro ⟨before, pair, after, hpairs, hgrammatical, hoffends⟩
      exact Query.parse_of_offends hpairs hgrammatical hoffends
  · intro o file pieces pieces' target timestamp hnoQuestion hsame
    have hquery : Query.parse ("&".intercalate pieces) = Query.parse ("&".intercalate pieces') := by
      rw [Query.parse_eq_ofPairs_tracked, Query.tracked_intercalate, hsame,
        ← Query.tracked_intercalate, ← Query.parse_eq_ofPairs_tracked]
    apply parse_congr
    · rw [splitId_append hnoQuestion, splitId_append hnoQuestion]
    · rw [splitId_append hnoQuestion, splitId_append hnoQuestion]
      exact hquery
  · intro o file pieces target timestamp hnoQuestion hforeign
    have hnone : (pieces.filter fun piece => !Query.isForeign piece) = [] := by
      rw [List.filter_eq_nil_iff]
      intro piece hpiece
      simp [hforeign piece hpiece]
    have hquery : Query.parse ("&".intercalate pieces) = .ok .empty := by
      rw [Query.parse_eq_ofPairs_tracked, Query.tracked_intercalate, hnone]
      rfl
    apply parse_congr
    · rw [splitId_append hnoQuestion, splitId_of_notMem hnoQuestion]
    · rw [splitId_append hnoQuestion, splitId_of_notMem hnoQuestion]
      exact hquery

/-- A key that is escaped is read, a flag that stands again with a value it does not take is refused
for the value, and marks that others put into an identifier are passed over. -/
theorem query_reads_exactly_its_grammar_marked :
    let o := Options.atRoot ⟨"/app"⟩
    let raw := "t=1&s%76elte=true&type=style"
    let q : Query := ⟨[.marker, .artifact .style]⟩
    Query.parse raw = .ok q ∧ q.Names (Query.tracked raw) ∧ Query.parse q.text = .ok q ∧
    Query.parse "direct&direct=no&url=no" = .error (.unexpectedValue .direct) ∧
    parse o ("/app/A.svelte" ++ "?" ++ "&".intercalate ["v=9", "svelte", "", "import"]) .dom =
      parse o ("/app/A.svelte" ++ "?" ++ "&".intercalate ["svelte"]) .dom ∧
    parse o ("/app/A.svelte" ++ "?" ++ "&".intercalate ["t=1", "im+port"]) .dom =
      parse o "/app/A.svelte" .dom := by
  intro o raw q
  obtain ⟨-, hreads, hrefuses, hignores, hdrops⟩ := query_reads_exactly_its_grammar
  have hread : Query.parse raw = .ok q := by decide +kernel
  obtain ⟨hnames, hwritten⟩ := hreads raw q hread
  have hrefused : Query.parse "direct&direct=no&url=no" = .error (.unexpectedValue .direct) := by
    refine (hrefuses _ _).2 ⟨[("direct".toList, [])], ("direct".toList, "no".toList),
      [("url".toList, "no".toList)], by decide +kernel, ⟨?_, by decide⟩, ?_⟩
    · intro pair hpair
      rw [List.mem_singleton.1 hpair]
      decide
    · exact .unexpectedValue (k := .direct) (by decide) (by decide)
  refine ⟨hread, hnames, hwritten, hrefused, ?_, ?_⟩
  · exact hignores o _ _ _ _ _ (by decide) (by decide +kernel)
  · exact hdrops o _ _ _ _ (by decide) (by decide +kernel)

end HotComponents.ModuleId
