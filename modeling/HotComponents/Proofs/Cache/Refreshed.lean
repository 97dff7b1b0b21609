import HotComponents.Proofs.Cache.Mirror

/-!
# What changes of files make of the records

What one change makes of a cache whose components are compiled by a rule can be said of each slot on
its own: if the change concerns it, the browser's record is made anew and the server's is dropped,
and otherwise the record stays as it is. A second change concerns other slots than it would have
concerned without the first one, but only slots that the first one has seen to already. So it does
not matter which of them came first.

* `Cache.Concerns`: which slots a change of a file concerns;
* `Cache.Refreshed.trans`: what two changes make of a cache, one after the other;
* `Cache.Refreshed.peek_eq`, `Cache.Refreshed.mem_iff`: the slots that are concerned determine the
  records and what is reported.
-/

namespace HotComponents

namespace Cache

variable {c c' c₁ c₂ : Cache} {f g : FilePath} {k : Key} {touched : Key → Prop}
  {ids ids₁ ids₂ : List String} {makes : FilePath → Option Record}
  {stale : Record → Record → List String}

/-- A change of a file concerns a slot if the slot is the file's own or its record depends on the
file. -/
def Concerns (c : Cache) (file : FilePath) (k : Key) : Prop :=
  file.components = k.file.components ∨ ∃ r, c.peek k = some r ∧ r.uses file

/-- Whom a file concerns is a matter of what is shown of the key. -/
theorem concerns_congr (h : c'.peek k = c.peek k) : c'.Concerns f k ↔ c.Concerns f k := by
  rw [Concerns, Concerns, h]

/-- What becomes of a cache, and what is reported of it, when some slots are touched. The browser's
records in them are made anew. The server's records go if their own slots are touched or those of
their components for the browser. All others stay. What is reported are the modules that are stale
by the new records. -/
structure Refreshed (makes : FilePath → Option Record) (stale : Record → Record → List String)
    (touched : Key → Prop) (c : Cache) (ids : List String) (c' : Cache) : Prop where
  anew : ∀ {k : Key} {r : Record}, k.target = .dom → touched k → c.peek k = some r →
    ∃ r', makes r.file = some r' ∧ c'.peek k = some r'
  absent : ∀ {k : Key}, k.target = .dom → c.peek k = none → c'.peek k = none
  kept : ∀ {k : Key}, k.target = .dom → ¬ touched k → c'.peek k = c.peek k
  dropped : ∀ {k : Key}, k.target = .ssr → touched ⟨k.file, .dom⟩ ∨ touched k → c'.peek k = none
  spared : ∀ {k : Key}, k.target = .ssr → ¬ touched ⟨k.file, .dom⟩ → ¬ touched k →
    c'.peek k = c.peek k
  reported : ∀ {id : String}, id ∈ ids ↔ ∃ k r r', k.target = .dom ∧ touched k ∧
    c.peek k = some r ∧ makes r.file = some r' ∧ id ∈ stale r r'

/-- The slots that are touched determine the records. -/
theorem Refreshed.peek_eq (h₁ : Refreshed makes stale touched c ids₁ c₁)
    (h₂ : Refreshed makes stale touched c ids₂ c₂) (k : Key) : c₁.peek k = c₂.peek k := by
  -- A browser record is remade or kept, a server record dropped or spared. Which of the two it is
  -- depends on the change alone, and so does what it is remade to.
  cases htarget : k.target with
  | dom =>
    by_cases ht : touched k
    · cases hr : c.peek k with
      | none => rw [h₁.absent htarget hr, h₂.absent htarget hr]
      | some r =>
        obtain ⟨r₁, hmakes₁, hr₁⟩ := h₁.anew htarget ht hr
        obtain ⟨r₂, hmakes₂, hr₂⟩ := h₂.anew htarget ht hr
        rw [hr₁, hr₂, ← hmakes₁, ← hmakes₂]
    · rw [h₁.kept htarget ht, h₂.kept htarget ht]
  | ssr =>
    by_cases ht : touched ⟨k.file, .dom⟩ ∨ touched k
    · rw [h₁.dropped htarget ht, h₂.dropped htarget ht]
    · obtain ⟨hbrowser, hserver⟩ := not_or.1 ht
      rw [h₁.spared htarget hbrowser hserver, h₂.spared htarget hbrowser hserver]

/-- The slots that are touched determine what is reported. -/
theorem Refreshed.mem_iff (h₁ : Refreshed makes stale touched c ids₁ c₁)
    (h₂ : Refreshed makes stale touched c ids₂ c₂) (id : String) : id ∈ ids₁ ↔ id ∈ ids₂ :=
  h₁.reported.trans h₂.reported.symm

/-- Whatever was touched, a component is spelled as before. -/
theorem Refreshed.file_of_peek (h : Refreshed makes stale touched c ids c')
    (hfile : ∀ {file r}, makes file = some r → r.file = file) {r' : Record} (hk : k.target = .dom)
    (hr' : c'.peek k = some r') : ∃ r, c.peek k = some r ∧ r'.file = r.file := by
  cases hr : c.peek k with
  | none =>
    rw [h.absent hk hr] at hr'
    cases hr'
  | some r =>
    refine ⟨r, rfl, ?_⟩
    by_cases ht : touched k
    · obtain ⟨r₁, hmakes, hr₁⟩ := h.anew hk ht hr
      cases hr₁.symm.trans hr'
      exact hfile hmakes
    · rw [h.kept hk ht, hr] at hr'
      cases hr'
      rfl

section Twice

variable (h₁ : Refreshed makes stale (c.Concerns f) c ids₁ c₁)
include h₁

/-- A slot that the first change does not concern is concerned by the second one as before. -/
theorem Refreshed.concerns_iff (hk : k.target = .dom) (hnot : ¬ c.Concerns f k) :
    c₁.Concerns g k ↔ c.Concerns g k :=
  concerns_congr (h₁.kept hk hnot)

/-- What two changes make of a cache, one after the other, is what becomes of it when the slots are
touched that either of them concerns: a record that is made anew a second time is what it was made
the first time. -/
theorem Refreshed.trans (hfile : ∀ {file r}, makes file = some r → r.file = file)
    (hsame : ∀ r, stale r r = [])
    (h₂ : Refreshed makes stale (c₁.Concerns g) c₁ ids₂ c₂) :
    Refreshed makes stale (fun k => c.Concerns f k ∨ c.Concerns g k) c (ids₁ ++ ids₂) c₂ where
  anew {k r} hk ht hr := by
    by_cases hf : c.Concerns f k
    · -- A record that is made anew is spelled as before, so it is made into itself once more.
      obtain ⟨r', hmakes, hr'⟩ := h₁.anew hk hf hr
      refine ⟨r', hmakes, ?_⟩
      by_cases hg : c₁.Concerns g k
      · obtain ⟨r'', hmakes', hr''⟩ := h₂.anew hk hg hr'
        rw [hr'', ← hmakes', hfile hmakes, hmakes]
      · rw [h₂.kept hk hg, hr']
    · have hg := (h₁.concerns_iff hk hf).2 (ht.resolve_left hf)
      exact h₂.anew hk hg ((h₁.kept hk hf).trans hr)
  absent hk hr := h₂.absent hk (h₁.absent hk hr)
  kept {k} hk ht := by
    obtain ⟨hf, hg⟩ := not_or.1 ht
    rw [h₂.kept hk (mt (h₁.concerns_iff hk hf).1 hg), h₁.kept hk hf]
  dropped {k} hk ht := by
    by_cases hf : c.Concerns f ⟨k.file, .dom⟩ ∨ c.Concerns f k
    · -- What the first change drops is not there when the second one comes.
      have hnone := h₁.dropped hk hf
      by_cases hg : c₁.Concerns g ⟨k.file, .dom⟩ ∨ c₁.Concerns g k
      · exact h₂.dropped hk hg
      · obtain ⟨hbrowser, hserver⟩ := not_or.1 hg
        rw [h₂.spared hk hbrowser hserver, hnone]
    · obtain ⟨hbrowser, hserver⟩ := not_or.1 hf
      have hkept := h₁.spared hk hbrowser hserver
      refine h₂.dropped hk ?_
      rw [h₁.concerns_iff rfl hbrowser, concerns_congr hkept]
      exact ht.imp (·.resolve_left hbrowser) (·.resolve_left hserver)
  spared {k} hk hbrowser hserver := by
    obtain ⟨hfb, hgb⟩ := not_or.1 hbrowser
    obtain ⟨hfs, hgs⟩ := not_or.1 hserver
    have hkept := h₁.spared hk hfb hfs
    rw [h₂.spared hk (mt (h₁.concerns_iff rfl hfb).1 hgb) (mt (concerns_congr hkept).1 hgs), hkept]
  reported {id} := by
    rw [List.mem_append, h₁.reported, h₂.reported]
    constructor
    · rintro (⟨k, r, r', hk, hf, hrest⟩ | ⟨k, r, r', hk, hg, hr, hmakes, hid⟩)
      · exact ⟨k, r, r', hk, .inl hf, hrest⟩
      · by_cases hf : c.Concerns f k
        · -- The record is the one that the first change has made.
          obtain ⟨r₀, hr₀, hspelled⟩ := h₁.file_of_peek hfile hk hr
          obtain ⟨r₁, hmakes₁, hr₁⟩ := h₁.anew hk hf hr₀
          rw [hspelled] at hmakes
          cases hr₁.symm.trans hr
          cases hmakes₁.symm.trans hmakes
          rw [hsame] at hid
          cases hid
        · rw [h₁.kept hk hf] at hr
          exact ⟨k, r, r', hk, .inr ((h₁.concerns_iff hk hf).1 hg), hr, hmakes, hid⟩
    · rintro ⟨k, r, r', hk, ht, hr, hrest⟩
      by_cases hf : c.Concerns f k
      · exact .inl ⟨k, r, r', hk, hf, hr, hrest⟩
      · have hg := (h₁.concerns_iff hk hf).2 (ht.resolve_left hf)
        exact .inr ⟨k, r, r', hk, hg, (h₁.kept hk hf).trans hr, hrest⟩

end Twice

/-- It does not matter which of two changes comes first. -/
theorem Refreshed.comm {d₁ d₂ : Cache} {ids₁' ids₂' : List String}
    (hfile : ∀ {file r}, makes file = some r → r.file = file) (hsame : ∀ r, stale r r = [])
    (h₁ : Refreshed makes stale (c.Concerns f) c ids₁ c₁)
    (h₂ : Refreshed makes stale (c₁.Concerns g) c₁ ids₂ c₂)
    (h₁' : Refreshed makes stale (c.Concerns g) c ids₁' d₁)
    (h₂' : Refreshed makes stale (d₁.Concerns f) d₁ ids₂' d₂) :
    (∀ k, c₂.peek k = d₂.peek k) ∧ ∀ id, id ∈ ids₁ ++ ids₂ ↔ id ∈ ids₁' ++ ids₂' := by
  have hfirst := h₁.trans hfile hsame h₂
  have hsecond := h₁'.trans hfile hsame h₂'
  simp only [or_comm (a := c.Concerns g _)] at hsecond
  exact ⟨hfirst.peek_eq hsecond, hfirst.mem_iff hsecond⟩

end Cache

end HotComponents
