import HotComponents.Proofs.Cache.Ordered
import HotComponents.Proofs.Cache.Renewal
import HotComponents.Proofs.Cache.SingleFlight
import HotComponents.Proofs.Cache.Superseded

/-!
# Succession

The records that are stored for a slot follow one upon another: first the one that counts in the
beginning, if there is one, and then each that is stored. A recompute has the record in hand that
was displaced for its ticket. Others may lead, fail and put their displaced record back before it
claims the slot, and any number of calls may wait behind it; but from its claim to its success
nobody else stores a record, so what it returns are two neighbours.

* `invocations_of_recomputed`: a recompute that returns a record has computed once;
* `follows_step`, `follows_run`: how the calls for a slot that nothing edits stand in its
  succession;
* `lands_step`, `lands_after`: no two recomputes return the record of one compute;
* `recomputes_return_neighbours`: what recomputes return stands side by side in the succession.
-/

namespace HotComponents

namespace Workbench

variable {w w' : Workbench} {m : Move} {i j n t : Nat} {call : Call} {k : Key}
  {previous : Option Filed} {f : Filed} {records : List Filed} {late : Nat → Prop}

/-- The record that a move stores for the slot of a key: that of a compute whose own pending slot is
still in place, or one that is put there. -/
def stored? (w : Workbench) (k : Key) : Move → Option Filed
  | .finish i (.ok r) =>
    match w.holding? i with
    | some (l, t) => if k.same l then some ⟨r, some t⟩ else none
    | none => none
  | .replace r => if k.same r.key then some ⟨r, none⟩ else none
  | _ => none

/-- The records that a run stores for the slot of a key, in order. -/
def stored (w : Workbench) (k : Key) : List Move → List Filed
  | [] => []
  | m :: moves => (w.stored? k m).toList ++ (w.apply m).stored k moves

/-- The record of a slot that counts in the beginning, if there is one, and then those that a run
stores for it. -/
def succession (w : Workbench) (k : Key) (moves : List Move) : List Filed :=
  (w.cache.current? k).toList ++ w.stored k moves

/-- How often a run invokes the compute of call number `i` for the slot of a key. -/
def invocations (w : Workbench) (k : Key) (i : Nat) : List Move → Nat
  | [] => 0
  | m :: moves => (if w.invokes m k i then 1 else 0) + (w.apply m).invocations k i moves

/-- Call number `i` is a recompute for the slot of a key and has returned a new record and the one
that it replaced. -/
def HasRecomputed (w : Workbench) (k : Key) (i : Nat) (previous : Option Filed) (f : Filed) :
    Prop :=
  ∃ call, w.calls[i]? = some call ∧ call.key.slot = k.slot ∧ call.intent = .recompute ∧
    call.phase = .returned (.recomputed previous f)

/-! ## What is stored -/

/-- A compute that ends in a record stores it in the slot that is pending under its ticket. -/
theorem stored?_finish (hcall : w.calls[i]? = some call) (hslot : call.key.slot = k.slot)
    (hphase : call.phase = .computing t previous)
    (hp : w.cache.content? k = some (.pending t previous)) (r : Record) :
    w.stored? k (.finish i (.ok r)) = some ⟨r, some t⟩ := by
  have hown : w.cache.isPending call.key t :=
    Cache.isPending_iff.2 ⟨previous, (Cache.content?_congr hslot).trans hp⟩
  have hholding : w.holding? i = some (call.key, t) := by simp [holding?, hcall, hphase, hown]
  have hsame : k.same call.key := Key.same_iff.2 hslot.symm
  simp only [stored?, hholding, hsame, if_true]

/-- The record that a move stores is the one that counts behind it. -/
theorem current?_of_stored? (hw : Sound w) (hstored : w.stored? k m = some f) :
    (w.apply m).cache.current? k = some f := by
  rw [current?_apply hw]
  -- Only a compute that ends well and a record that is put in store anything, and each is stored as
  -- the record behind the move is read off: by whether the slot is the one of the key.
  cases m with
  | finish i result =>
    cases result with
    | ok r =>
      simp only [stored?] at hstored
      simp only [currentAfter]
      cases hh : w.holding? i with
      -- Whoever holds nothing stores nothing.
      | none =>
        simp only [hh] at hstored
        cases hstored
      | some held =>
        simp only [hh] at hstored
        split at hstored
        · next hsame =>
          simp only [hsame, if_true]
          exact hstored
        · cases hstored
    | error e => cases hstored
  | replace r =>
    simp only [stored?] at hstored
    split at hstored
    · next hsame =>
      simp only [currentAfter, hsame, if_true]
      exact hstored
    · -- The record is put into another slot.
      cases hstored
  | _ => cases hstored

/-- The record that counts for an untouched slot after a move is the one that the move stores, and
otherwise the one that counted before. -/
theorem current?_apply_eq_or (hw : Sound w) (htouch : m.touches k = false) :
    (w.apply m).cache.current? k = (w.stored? k m).or (w.cache.current? k) := by
  cases hstored : w.stored? k m with
  -- What is stored counts, whatever counted before.
  | some f => rw [current?_of_stored? hw hstored, Option.some_or]
  | none =>
    rw [Option.none_or]
    rcases current?_apply_of_untouched hw htouch with
      hsame | ⟨j, t, leader, d, r, rfl, hleader, hslot, hleads, hp, _⟩
    · exact hsame
    · -- A record that is redeemed is stored.
      obtain ⟨d', hd'⟩ := Cache.isPending_iff.1 hp
      obtain ⟨j', holder, hholder, _, hholds⟩ := hw.led hd'
      obtain rfl := hw.single hholder hholds hleader hleads
      obtain rfl := Option.some.inj (hholder.symm.trans hleader)
      rw [stored?_finish hleader hslot hholds hd'] at hstored
      cases hstored

/-! ## One compute for each recompute -/

/-- A call keeps its key along a run. -/
theorem key_run (hcall : w.calls[i]? = some call) (moves : List Move) :
    ∃ call', (w.run moves).calls[i]? = some call' ∧ call'.key = call.key := by
  -- On the moves, with any workbench to begin with: one move keeps the key and the rest of the run
  -- begins behind it.
  induction moves generalizing w call with
  | nil => exact ⟨call, hcall, rfl⟩
  | cons m moves ih =>
    obtain ⟨next, hnext, hkey⟩ := call_step (step_apply w m) hcall
    obtain ⟨call', hcall', hkey'⟩ := ih hnext
    exact ⟨call', hcall', hkey'.trans hkey⟩

/-- Call number `i` has begun to compute or has ended. -/
def HasBegun (w : Workbench) (i : Nat) : Prop :=
  ∃ call, w.calls[i]? = some call ∧ (call.hasEnded ∨ ∃ t d, call.phase = .computing t d)

/-- A recompute that has returned a record has begun. -/
theorem HasRecomputed.hasBegun (h : w.HasRecomputed k i previous f) : w.HasBegun i := by
  obtain ⟨call, hcall, _, _, hphase⟩ := h
  exact ⟨call, hcall, .inl (by simp [Call.hasEnded, hphase])⟩

/-- What it has returned is one answer. -/
theorem HasRecomputed.unique {previous' : Option Filed} {f' : Filed}
    (h : w.HasRecomputed k i previous f) (h' : w.HasRecomputed k i previous' f') :
    previous = previous' ∧ f = f' := by
  obtain ⟨call, hcall, _, _, hphase⟩ := h
  obtain ⟨call', hcall', _, _, hphase'⟩ := h'
  obtain rfl := Option.some.inj (hcall.symm.trans hcall')
  cases hphase.symm.trans hphase'
  exact ⟨rfl, rfl⟩

/-- A call that is inside its compute has begun. -/
theorem hasBegun_of_computesFor (h : w.computesFor k i) : w.HasBegun i := by
  obtain ⟨call, t, d, hcall, _, hphase⟩ := computesFor_iff.1 h
  exact ⟨call, hcall, .inr ⟨t, d, hphase⟩⟩

/-- A call that is yet to start has not begun. -/
theorem not_hasBegun_of_isYetToStart (h : w.isYetToStart i) : ¬ w.HasBegun i := by
  rintro ⟨call, hcall, hbegun⟩
  simp only [isYetToStart, phase?, hcall, Option.map_some] at h
  rcases hbegun with hended | ⟨t, d, hphase⟩
  · unfold Call.hasEnded at hended
    split at hended <;> simp_all
  · simp [hphase] at h

/-- A move leaves a call that computes as it is, or ends it. -/
theorem hasBegun_apply (h : w.HasBegun i) (m : Move) :
    (w.apply m).HasBegun i ∧ w.invokes m k i = false := by
  obtain ⟨call, hcall, hbegun⟩ := h
  have hstep := step_apply w m
  have hafter : (w.apply m).calls[i]? = some call ∨
      ∃ call', (w.apply m).calls[i]? = some call' ∧ call'.hasEnded := by
    rcases hbegun with hended | ⟨t, d, hphase⟩
    -- One that has ended stays, and one that computes stays or ends.
    · exact .inl (ended_step hstep hcall hended)
    · exact (computing_stays hstep hcall hphase).imp_right And.left
  constructor
  · rcases hafter with hsame | ⟨ended, hended, hend⟩
    · exact ⟨call, hsame, hbegun⟩
    · exact ⟨ended, hended, .inl hend⟩
  · rw [← Bool.not_eq_true]
    -- It would have to be invoked while it is outside its compute before the move and inside it
    -- behind.
    intro hinvokes
    obtain ⟨_, call', t, d, hcall', hslot, hphase, _⟩ := of_invokes hinvokes
    rcases hafter with hsame | ⟨ended, hended, hend⟩
    · -- The call is inside its compute before the move as it is behind it.
      obtain rfl := Option.some.inj (hsame.symm.trans hcall')
      have hbefore : w.computesFor k i := computesFor_iff.2 ⟨_, t, d, hcall, hslot, hphase⟩
      simp [invokes, hbefore] at hinvokes
    · obtain rfl := Option.some.inj (hended.symm.trans hcall')
      rw [Call.hasEnded_of_computing hphase] at hend
      cases hend

/-- A call that computes or has ended is not invoked any more. -/
theorem invocations_of_hasBegun (h : w.HasBegun i) (moves : List Move) :
    w.invocations k i moves = 0 := by
  induction moves generalizing w with
  | nil => rfl
  | cons m moves ih =>
    obtain ⟨hlater, hnone⟩ := hasBegun_apply (k := k) h m
    simp only [invocations, hnone, Bool.false_eq_true, if_false, Nat.zero_add]
    exact ih hlater

/-- A recompute that returns a record has invoked its compute once. -/
theorem invocations_of_recomputed {moves : List Move} (hnot : ¬ w.HasBegun i)
    (h : (w.run moves).HasRecomputed k i previous f) : w.invocations k i moves = 1 := by
  -- On the moves, up to the one with which the call begins; from there on it is not invoked any
  -- more.
  induction moves generalizing w with
  | nil => exact absurd h.hasBegun hnot
  | cons m moves ih =>
    have hnever : w.computesFor k i = false := by
      rw [← Bool.not_eq_true]
      exact fun hcomputes => hnot (hasBegun_of_computesFor hcomputes)
    by_cases hbegun : (w.apply m).HasBegun i
    · -- It begins with this move. It cannot return at once, so it is inside its compute now.
      have hcomputes : (w.apply m).computesFor k i := by
        obtain ⟨last, hlast, hslot, _, hphase⟩ := h
        obtain ⟨call, hcall, hended | ⟨t, d, hcomputing⟩⟩ := hbegun
        · rw [run_cons, ended_run hcall hended moves] at hlast
          obtain rfl := Option.some.inj hlast
          exfalso
          rcases recomputed_step (step_apply w m) hcall hphase with
            hold | ⟨leader, t, _, hleader, _, hleads, _⟩
          · -- It had its answer before the move, so it had begun.
            exact hnot ⟨call, hold, .inl hended⟩
          · -- The move ends its compute, so it had begun before that.
            exact hnot ⟨leader, hleader, .inr ⟨t, _, hleads⟩⟩
        · obtain ⟨call', hcall', hkey⟩ := key_run hcall moves
          obtain rfl := Option.some.inj (hcall'.symm.trans hlast)
          exact computesFor_iff.2 ⟨call, t, d, hcall, hkey ▸ hslot, hcomputing⟩
      simp only [invocations, invokes, hnever, hcomputes, Bool.not_false, Bool.and_self, if_true,
        invocations_of_hasBegun hbegun]
    -- It does not begin yet, so the move is no invocation, and the rest of the run counts.
    · have hstill : (w.apply m).computesFor k i = false := by
        rw [← Bool.not_eq_true]
        exact fun hcomputes => hbegun (hasBegun_of_computesFor hcomputes)
      simp only [invocations, invokes, hstill, Bool.and_false, Bool.false_eq_true, if_false,
        Nat.zero_add]
      exact ih hbegun h

/-- A recompute returns an error, or a new record and the one that it replaced. -/
def AnswersRecomputes (w : Workbench) : Prop :=
  ∀ (i : Nat) (call : Call) (a : Answer Filed), w.calls[i]? = some call →
    call.intent = .recompute → call.phase = .returned a →
    (∃ e, a = .failure e) ∨ ∃ previous f, a = .recomputed previous f

/-- Whatever a step returns to a recompute is an error, or a new record and the one it replaced. -/
theorem answersRecomputes_step (h : Step w m w') (ha : w.AnswersRecomputes) :
    w'.AnswersRecomputes := by
  intro i call a hcall hintent hphase
  -- Only a turn of this very call can give it another answer.
  cases h with
  | idle => exact ha i call a hcall hintent hphase
  | edit => exact ha i call a hcall hintent hphase
  | make =>
    rcases calls_make hcall with hold | ⟨_, rfl⟩
    -- A call that is made has no answer yet.
    · exact ha i call a hold hintent hphase
    · cases hphase
  | turn hcall' hedit hturn =>
    rw [calls_update hcall'] at hcall
    split at hcall
    · next heq =>
      subst heq
      obtain rfl := Option.some.inj hcall
      rw [Call.intent_atPhase] at hintent
      -- One case for each way in which a call can take a turn. Only two of them answer a recompute.
      cases hturn with
      | rest => exact ha _ _ a hcall' hintent hphase
      | hit hlook hready haccepts =>
        -- It takes no record that is there.
        simp [Call.reuse, hintent, Reuse.accepts] at haccepts
      | miss hlook hvacant hsettles =>
        rw [hintent] at hsettles
        cases hsettles
      | hear hwaits hknown hheard =>
        -- It takes nothing that it is told.
        simp [Call.heard?, hintent] at hheard
      | land hcomputes =>
        cases hphase
        exact .inr ⟨_, _, by simp only [Call.computedAnswer, hintent]; rfl⟩
      | fail hcomputes =>
        cases hphase
        exact .inl ⟨_, rfl⟩
      | wait => cases hphase
      | lead => cases hphase
      | quit => cases hphase
      | leave => cases hphase
    · exact ha i call a hcall hintent hphase

/-- Behind every run recomputes have been answered so. -/
theorem answersRecomputes_after (moves : List Move) : (after moves).AnswersRecomputes := by
  refine kept_run (fun _ ha m => answersRecomputes_step (step_apply _ m) ha) sound_empty ?_ moves
  intro i call a hcall
  simp at hcall

/-! ## Calls in the succession -/

/-- How calls stand in the succession of a slot: those that compute for it hold it, and what a
recompute has returned are neighbours. -/
structure Follows (late : Nat → Prop) (k : Key) (records : List Filed) (w : Workbench) : Prop where
  last : records.getLast? = w.cache.current? k
  held : ∀ {i t : Nat} {call : Call} {d : Option Filed}, late i → w.calls[i]? = some call →
    call.key.slot = k.slot → call.phase = .computing t d →
    w.cache.content? k = some (.pending t d)
  placed : ∀ {i : Nat} {previous : Option Filed} {f : Filed}, late i →
    w.HasRecomputed k i previous f →
    ∃ earlier later, records = earlier ++ f :: later ∧ earlier.getLast? = previous

/-- A succession is extended by what a move stores, and the calls keep their places in it. -/
theorem follows_step (hw : Sound w) (htouch : m.touches k = false)
    (hk : Follows late k records w) :
    Follows late k (records ++ (w.stored? k m).toList) (w.apply m) where
  last := by
    rw [current?_apply_eq_or hw htouch]
    cases w.stored? k m with
    | none => simpa using hk.last
    | some f => simp
  held := by
    intro i t call d hi hcall hslot hphase
    have h := step_apply w m
    -- The call has computed before the move, or takes its ticket with it.
    rcases computing_step h hcall hphase with hold | ⟨_, rfl, hcache, _⟩
    · rcases pending_stays h htouch (hk.held hi hold hslot hphase) with hp | ha
      · exact hp
      · -- Nothing is announced of a ticket that is still computed under.
        rw [(sound_step hw h).unheard hcall hphase] at ha
        cases ha
    · -- The ticket that it takes is the one under which the slot is pending now.
      rw [hcache, Cache.content?_issue, if_pos hslot.symm]
  placed := by
    intro i previous f hi hrecomputed
    obtain ⟨call, hcall, hslot, hintent, hphase⟩ := hrecomputed
    -- The answer was there before the move, or the move ends the compute.
    rcases recomputed_step (step_apply w m) hcall hphase with
      hold | ⟨leader, t, r, hleader, hkey, hleads, _, rfl, rfl⟩
    -- What stood before it in the succession still does; a stored record comes behind all of them.
    · obtain ⟨earlier, later, hrecords, hprevious⟩ :=
        hk.placed hi ⟨call, hold, hslot, hintent, hphase⟩
      refine ⟨earlier, later ++ (w.stored? k m).toList, ?_, hprevious⟩
      rw [hrecords, List.append_assoc, List.cons_append]
    · -- It is stored now, behind the record that was displaced for it.
      have hslot' : leader.key.slot = k.slot := hkey ▸ hslot
      have hp := hk.held hi hleader hslot' hleads
      refine ⟨records, [], ?_, ?_⟩
      · rw [stored?_finish hleader hslot' hleads hp]
        rfl
      · rw [hk.last, Cache.current?, hp]
        rfl

/-- Along a run the succession is extended by all that the run stores. -/
theorem follows_run (hw : Sound w) {moves : List Move} (htouch : ∀ m ∈ moves, m.touches k = false)
    (hk : Follows late k records w) :
    Follows late k (records ++ w.stored k moves) (w.run moves) := by
  -- On the moves, with the records so far as a parameter: each move appends what it stores.
  induction moves generalizing w records with
  | nil =>
    rw [stored, List.append_nil]
    exact hk
  | cons m moves ih =>
    rw [List.forall_mem_cons] at htouch
    rw [stored, ← List.append_assoc]
    exact ih (sound_step hw (step_apply w m)) htouch.2 (follows_step hw htouch.1 hk)

/-- In the beginning a succession is the record that counts, and no call that is late has begun. -/
theorem follows_here (w : Workbench) (k : Key) :
    Follows (fun i => ¬ w.HasBegun i) k (w.cache.current? k).toList w where
  last := by cases w.cache.current? k <;> rfl
  held hi hcall _ hphase := absurd ⟨_, hcall, .inr ⟨_, _, hphase⟩⟩ hi
  placed hi hrecomputed := absurd hrecomputed.hasBegun hi

/-- The calls that begin in a run that leaves the slot untouched stand in its succession. -/
theorem follows_succession (before : List Move) {moves : List Move}
    (htouch : ∀ m ∈ moves, m.touches k = false) :
    Follows (fun i => ¬ (after before).HasBegun i) k ((after before).succession k moves)
      ((after before).run moves) :=
  follows_run (sound_after before) htouch (follows_here (after before) k)

/-! ## Tickets of recomputes -/

/-- A recompute that has returned a record has let go its ticket, which was its own. -/
structure Lands (w : Workbench) : Prop where
  announced : ∀ {i : Nat} {call : Call} {previous : Option Filed} {f : Filed},
    w.calls[i]? = some call → call.phase = .returned (.recomputed previous f) →
    ∃ t, f.ticket? = some t ∧ (w.cache.announcement? t).isSome
  single : ∀ {i j : Nat} {call call' : Call} {previous previous' : Option Filed} {f : Filed},
    w.calls[i]? = some call → call.phase = .returned (.recomputed previous f) →
    w.calls[j]? = some call' → call'.phase = .returned (.recomputed previous' f) → i = j

/-- A recompute that lands lets go a ticket of its own, so no two of them have the same record. -/
theorem lands_step (hw : Sound w) (h : Step w m w') (hl : Lands w) : Lands w' where
  announced := by
    intro i call previous f hcall hphase
    -- An answer that was there keeps its announcement; one that the move gives is announced with
    -- it.
    rcases recomputed_step h hcall hphase with
      hold | ⟨_, t, r, _, _, _, hcache, _, rfl⟩
    · obtain ⟨t, ht, ha⟩ := hl.announced hold hphase
      obtain ⟨a, ha⟩ := Option.isSome_iff_exists.1 ha
      exact ⟨t, ht, Option.isSome_of_eq_some (announcement?_step hw h ha)⟩
    · refine ⟨t, rfl, ?_⟩
      rw [hcache, Cache.announcement?_announce, if_pos rfl]
      rfl
  single := by
    intro i j call call' previous previous' f hi hphase hj hphase'
    -- Whoever lands has computed under a ticket of which nothing was announced.
    have hnew {i j t : Nat} {old leader : Call} {d p : Option Filed} {r : Record}
        (hold : w.calls[i]? = some old)
        (hreturned : old.phase = .returned (.recomputed p ⟨r, some t⟩))
        (hleader : w.calls[j]? = some leader) (hleads : leader.phase = .computing t d) : False := by
      obtain ⟨u, hu, ha⟩ := hl.announced hold hreturned
      cases hu
      rw [hw.unheard hleader hleads] at ha
      cases ha
    -- Each of the two answers was there before the move or comes with it. Two that come with one
    -- move are answers of one call.
    rcases recomputed_step h hi hphase with
      hold | ⟨leader, t, r, hleader, _, hleads, _, hm, rfl⟩ <;>
      rcases recomputed_step h hj hphase' with
        hold' | ⟨leader', t', r', hleader', _, hleads', _, hm', hf⟩
    · exact hl.single hold hphase hold' hphase'
    · subst hf
      exact (hnew hold hphase hleader' hleads').elim
    · exact (hnew hold' hphase' hleader hleads).elim
    · cases hm.symm.trans hm'
      rfl

/-- Behind every run recomputes have landed under tickets of their own. -/
theorem lands_after (moves : List Move) : Lands (after moves) :=
  kept_run (fun hw hl m => lands_step hw (step_apply _ m) hl) sound_empty ⟨nofun, nofun⟩ moves

/-! ## Neighbours -/

/-- Where a list is split before one of its elements, that one and the last before it are
neighbours. -/
theorem neighbours_of_split (earlier : List Filed) (f : Filed) (later : List Filed) :
    (earlier ++ f :: later)[earlier.length]? = some f ∧
      earlier.getLast? = if earlier.length = 0 then none
        else (earlier ++ f :: later)[earlier.length - 1]? := by
  refine ⟨by simp, ?_⟩
  split
  · next hlen =>
    rw [List.length_eq_zero_iff.1 hlen]
    rfl
  · next hlen =>
    rw [List.getLast?_eq_getElem?, List.getElem?_append_left]
    omega

/-- A recompute is diffed against the record it replaces. While nothing edits a slot, whatever calls
there are for it and however they end, each recompute either fails or has invoked its compute once
and returns two neighbours in the succession of the slot: the record that it stored and the one right
before it, which is missing only if nothing was stored before. No two recomputes store at one
place. -/
theorem recomputes_return_neighbours (before moves : List Move) (k : Key)
    (huntouched : ∀ m ∈ moves, m.touches k = false) :
    let w := after before
    let w' := w.run moves
    let records := w.succession k moves
    ∃ place : Nat → Nat,
      (∀ (i : Nat) (call : Call) (a : Answer Filed), w.isYetToStart i →
        w'.calls[i]? = some call → call.key.slot = k.slot → call.intent = .recompute →
        call.phase = .returned a →
        (∃ e, a = .failure e) ∨
        ∃ previous f, a = .recomputed previous f ∧ w.invocations k i moves = 1 ∧
          records[place i]? = some f ∧
          previous = if place i = 0 then none else records[place i - 1]?) ∧
      ∀ (i j : Nat) (previous previous' : Option Filed) (f f' : Filed),
        w.isYetToStart i → w.isYetToStart j → w'.HasRecomputed k i previous f →
        w'.HasRecomputed k j previous' f' → place i = place j → i = j := by
  intro w w' records
  have hfollows : Follows (fun i => ¬ w.HasBegun i) k records w' :=
    follows_succession before huntouched
  have hreached : w' = after (before ++ moves) := (after_append before moves).symm
  -- Where a recompute has stored its record, right behind the one that it displaced.
  have hplaced (i : Nat) : ∃ n, ∀ previous f, w.isYetToStart i → w'.HasRecomputed k i previous f →
      records[n]? = some f ∧ previous = if n = 0 then none else records[n - 1]? := by
    by_cases hi : w.isYetToStart i ∧ ∃ previous f, w'.HasRecomputed k i previous f
    · obtain ⟨hstart, previous, f, hrecomputed⟩ := hi
      obtain ⟨earlier, later, hrecords, hlast⟩ :=
        hfollows.placed (not_hasBegun_of_isYetToStart hstart) hrecomputed
      -- Its place is behind all that was in the succession when it landed.
      refine ⟨earlier.length, ?_⟩
      intro previous' f' _ hrecomputed'
      obtain ⟨rfl, rfl⟩ := hrecomputed.unique hrecomputed'
      rw [hrecords, ← hlast]
      exact neighbours_of_split earlier f later
    -- A call without such an answer may be placed anywhere.
    · refine ⟨0, fun previous f hstart hrecomputed => ?_⟩
      exact absurd ⟨hstart, previous, f, hrecomputed⟩ hi
  obtain ⟨place, hplace⟩ := Classical.skolem.1 hplaced
  refine ⟨place, ?_, ?_⟩
  · intro i call a hstart hcall hslot hintent hphase
    have hanswers := answersRecomputes_after (before ++ moves)
    rw [← hreached] at hanswers
    rcases hanswers i call a hcall hintent hphase with hfailed | ⟨previous, f, rfl⟩
    · exact .inl hfailed
    · have hrecomputed : w'.HasRecomputed k i previous f := ⟨call, hcall, hslot, hintent, hphase⟩
      have honce := invocations_of_recomputed (not_hasBegun_of_isYetToStart hstart) hrecomputed
      obtain ⟨hstored, hprevious⟩ := hplace i previous f hstart hrecomputed
      exact .inr ⟨previous, f, rfl, honce, hstored, hprevious⟩
  · intro i j previous previous' f f' hi hj hfirst hsecond hsame
    have hstored := (hplace i previous f hi hfirst).1
    have hstored' := (hplace j previous' f' hj hsecond).1
    rw [hsame, hstored'] at hstored
    obtain rfl := Option.some.inj hstored
    -- One record was computed under one ticket, which one call took.
    have hlands := lands_after (before ++ moves)
    rw [← hreached] at hlands
    obtain ⟨call, hcall, _, _, hphase⟩ := hfirst
    obtain ⟨call', hcall', _, _, hphase'⟩ := hsecond
    exact hlands.single hcall hphase hcall' hphase'

/-- Call 1 fails while calls 2 and 3 wait behind it. Call 2 is given up in flight, call 3 puts
"second" in place of the "first" of call 0, and call 5 puts "fourth" in place of the "third" that
call 4 has obtained afresh. -/
theorem recomputes_return_neighbours_queued :
    let recompute : Move := .make Sample.key .recompute
    let moves : List Move :=
      [.make Sample.key (.obtain .any), .resume 0, .finish 0 (.ok (Sample.record "first")),
        recompute, recompute, recompute, .make Sample.key (.obtain (.matching ⟨[1]⟩)), recompute,
        .resume 1, .resume 2, .resume 3, .finish 1 (.error (.unreadable ⟨"/A.svelte"⟩)),
        .resume 2, .resume 3, .cancel 2, .resume 3, .finish 3 (.ok (Sample.record "second")),
        .resume 4, .resume 5, .finish 4 (.ok (Sample.record "third")), .resume 5,
        .finish 5 (.ok (Sample.record "fourth"))]
    let filed (code : String) (ticket : Nat) : Filed := ⟨Sample.record code, some ticket⟩
    let records : List Filed :=
      [filed "first" 0, filed "second" 3, filed "third" 4, filed "fourth" 5]
    (after []).succession Sample.key moves = records ∧
    (after moves).HasRecomputed Sample.key 3 (some (filed "first" 0)) (filed "second" 3) ∧
    (after moves).HasRecomputed Sample.key 5 (some (filed "third" 4)) (filed "fourth" 5) ∧
    (after []).invocations Sample.key 3 moves = 1 ∧
    ∃ place : Nat → Nat, records[place 3]? = some (filed "second" 3) ∧
      records[place 5]? = some (filed "fourth" 5) ∧ place 3 ≠ place 5 := by
  intro recompute moves filed records
  have huntouched : ∀ m ∈ moves, m.touches Sample.key = false := by decide
  have hrecords : (after []).succession Sample.key moves = records := by decide
  let third : Call :=
    ⟨Sample.key, .recompute, .returned (.recomputed (some (filed "first" 0)) (filed "second" 3))⟩
  let fifth : Call :=
    ⟨Sample.key, .recompute, .returned (.recomputed (some (filed "third" 4)) (filed "fourth" 5))⟩
  have hthird : (after moves).calls[3]? = some third := by decide
  have hfifth : (after moves).calls[5]? = some fifth := by decide
  obtain ⟨place, hplace, hapart⟩ := recomputes_return_neighbours [] moves Sample.key huntouched
  obtain ⟨_, ha⟩ | ⟨_, _, ha, honce, hstored, _⟩ :=
    hplace 3 third _ (by decide) hthird rfl rfl rfl
  · cases ha
  obtain ⟨_, ha'⟩ | ⟨_, _, ha', _, hstored', _⟩ :=
    hplace 5 fifth _ (by decide) hfifth rfl rfl rfl
  · cases ha'
  cases ha
  cases ha'
  have hthree : (after moves).HasRecomputed Sample.key 3 (some (filed "first" 0))
      (filed "second" 3) := ⟨third, hthird, rfl, rfl, rfl⟩
  have hfive : (after moves).HasRecomputed Sample.key 5 (some (filed "third" 4))
      (filed "fourth" 5) := ⟨fifth, hfifth, rfl, rfl, rfl⟩
  rw [hrecords] at hstored hstored'
  refine ⟨hrecords, hthree, hfive, honce, place, hstored, hstored', fun hsame => ?_⟩
  have hwrong := hapart 3 5 _ _ _ _ (by decide) (by decide) hthree hfive hsame
  omega

end Workbench

end HotComponents
