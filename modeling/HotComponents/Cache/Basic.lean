import HotComponents.Cache.Graph
import HotComponents.Component.Record
import HotComponents.Journal

/-!
# The record cache

One slot for each file and target. A slot holds a record, or it is pending: someone who holds a
*ticket* computes a new record for it, and the record that was there before is kept aside. What
became of a ticket is announced, so that everyone who waits for it can go on.

The *current* record of a slot is the one it holds or, while it is pending, the one kept aside. A
ticket changes a slot only while the slot is still pending under that very ticket. Whoever holds a
ticket has the displaced record in hand and puts it back when the compute comes to nothing.

Records are filed with the ticket they were computed under, so that two records that agree in all
they hold are still told apart by the compute that made them. Tickets are numbers that never repeat;
what is said of them is meant for fewer than 2⁶⁴ claims, which a counter of 64 bits tells apart.

* `current?_claim`: claiming a slot changes no current record;
* `current?_surrender`: giving a ticket up changes no current record;
* `current?_redeem`: redeeming a ticket changes at most the record of that slot.
-/

namespace HotComponents

/-- A record as the cache hands it out. -/
structure Filed where
  record : Record
  /-- The ticket it was computed under; none if it was put into its slot as it is. -/
  ticket? : Option Nat
deriving DecidableEq, Repr

/-- What a slot holds. -/
inductive Content where
  /-- A record. -/
  | ready (f : Filed)
  /-- A ticket under which a record is computed, and the record that was there before. -/
  | pending (ticket : Nat) (displaced : Option Filed)
deriving DecidableEq, Repr

/-- The record that counts while a slot has a given content. -/
def Content.current? : Content → Option Filed
  | ready f => some f
  | pending _ displaced => displaced

/-- What became of a ticket. -/
inductive Announcement where
  /-- A record for everyone who waits. -/
  | record (f : Filed)
  /-- An error for everyone who waits. -/
  | failure (e : BuildError)
  /-- The holder of the ticket is gone; everyone has to look again. -/
  | abandoned
deriving DecidableEq, Repr

/-- The records of a session, who depends on what, and the tickets. -/
structure Cache where
  /-- What the slots hold. -/
  slots : List (Slot × Content) := []
  /-- Who depends on what. -/
  graph : Graph := {}
  /-- The next ticket: the number of those that were given out, of which fewer than 2⁶⁴ are meant. -/
  nextTicket : Nat := 0
  /-- What became of tickets. -/
  announced : List (Nat × Announcement) := []
deriving Repr

/-- Which records a caller takes instead of computing one. -/
inductive Reuse where
  /-- Any record. -/
  | any
  /-- A record that came from a given source. -/
  | matching (digest : SourceDigest)
  /-- None. -/
  | never
deriving DecidableEq, Repr

/-- The caller takes the record. -/
def Reuse.accepts : Reuse → Record → Bool
  | any, _ => true
  | matching digest, r => digest == r.digest
  | never, _ => false

/-- What a caller finds at a slot. -/
inductive Claim where
  /-- A record that it takes. -/
  | hit (f : Filed)
  /-- Someone else's ticket. -/
  | wait (ticket : Nat)
  /-- A new ticket of its own, and the record that was displaced for it. -/
  | lead (ticket : Nat) (displaced : Option Filed)
deriving DecidableEq, Repr

namespace Cache

/-! ## Slots -/

/-- What a slot holds. -/
def content? (c : Cache) (k : Key) : Option Content :=
  (c.slots.find? fun entry => entry.1 = k.slot).map Prod.snd

/-- Slots with a new content in one of them. -/
def putSlot (slots : List (Slot × Content)) (s : Slot) (content : Content) :
    List (Slot × Content) :=
  (s, content) :: slots.filter fun entry => entry.1 ≠ s

/-- The cache with a new content in one slot. -/
def put (c : Cache) (k : Key) (content : Content) : Cache :=
  { c with slots := putSlot c.slots k.slot content }

/-- The cache with one slot empty. -/
def vacate (c : Cache) (k : Key) : Cache :=
  { c with slots := c.slots.filter fun entry => entry.1 ≠ k.slot }

/-- The slot is pending under the ticket. -/
def isPending (c : Cache) (k : Key) (ticket : Nat) : Bool :=
  match c.content? k with
  | some (.pending t _) => t == ticket
  | _ => false

/-- The record that a slot holds; nothing while it is pending. -/
def peek (c : Cache) (k : Key) : Option Record :=
  match c.content? k with
  | some (.ready f) => some f.record
  | _ => none

/-- The record that counts for a slot. -/
def current? (c : Cache) (k : Key) : Option Filed := (c.content? k).bind Content.current?

/-- The number of records that slots hold. -/
def size (c : Cache) : Nat :=
  (c.slots.filter fun entry => match entry.2 with
    | .ready _ => true
    | .pending _ _ => false).length

/-- The keys of the records that depend on a file, ascending. -/
def dependents (c : Cache) (file : FilePath) : List Key := c.graph.dependents file

/-! ## Tickets -/

/-- What became of a ticket, if that is known. -/
def announcement? (c : Cache) (ticket : Nat) : Option Announcement :=
  (c.announced.find? fun entry => entry.1 = ticket).map Prod.snd

/-- The cache in which it is known what became of a ticket. -/
def announce (c : Cache) (ticket : Nat) (a : Announcement) : Cache :=
  { c with announced := (ticket, a) :: c.announced }

/-- The cache in which a slot is pending under a new ticket, one of fewer than 2⁶⁴. -/
def issue (c : Cache) (k : Key) (displaced : Option Filed) : Cache :=
  { c.put k (.pending c.nextTicket displaced) with nextTicket := c.nextTicket + 1 }

/-- What a caller finds at a slot, and the cache behind it: a record it takes, a ticket to wait for,
or else a ticket of its own. -/
def claim (c : Cache) (k : Key) (reuse : Reuse) : Cache × Claim :=
  match c.content? k with
  | some (.pending ticket _) => (c, .wait ticket)
  | some (.ready f) =>
    if reuse.accepts f.record then (c, .hit f)
    else (c.issue k (some f), .lead c.nextTicket (some f))
  | none => (c.issue k none, .lead c.nextTicket none)

/-- What is said when a record is displaced. -/
def claimNotes (k : Key) : Claim → Journal
  | .lead _ (some _) =>
    [.detail "cache" ("recompiling " ++ k.file.text ++ " (ssr: " ++ k.target.text ++ ")")]
  | _ => []

/-- The cache with a record put into the slot that is pending under the ticket; a superseded ticket
changes nothing. -/
def redeem (c : Cache) (k : Key) (ticket : Nat) (r : Record) : Cache :=
  if c.isPending k ticket then
    { c.put k (.ready ⟨r, some ticket⟩) with graph := c.graph.record k r.dependencies }
  else c

/-- What is said when a record was computed under a superseded ticket. -/
def redeemNotes (c : Cache) (k : Key) (ticket : Nat) : Journal :=
  if c.isPending k ticket then []
  else [.detail "cache" ("discarding superseded compile of " ++ k.file.text)]

/-- The cache with the displaced record back in the slot that is pending under the ticket, or with
that slot empty if none was displaced; a superseded ticket changes nothing. -/
def surrender (c : Cache) (k : Key) (ticket : Nat) (displaced : Option Filed) : Cache :=
  if c.isPending k ticket then
    match displaced with
    | some f => c.put k (.ready f)
    | none => c.vacate k
  else c

/-! ## Direct changes -/

/-- The cache with a record put into its slot, whatever that held. -/
def replace (c : Cache) (r : Record) : Cache :=
  { c.put r.key (.ready ⟨r, none⟩) with graph := c.graph.record r.key r.dependencies }

/-- The cache with one slot empty and its edges gone. -/
def invalidateKey (c : Cache) (k : Key) : Cache :=
  { c.vacate k with graph := c.graph.remove k }

/-- What is said when a slot that held something is emptied. -/
def invalidateNotes (c : Cache) (k : Key) : Journal :=
  if (c.content? k).isSome then
    [.detail "cache" ("invalidated " ++ k.file.text ++ " (ssr: " ++ k.target.text ++ ")")]
  else []

/-- The cache with both slots of a file empty. -/
def invalidate (c : Cache) (file : FilePath) : Cache :=
  (c.invalidateKey ⟨file, .dom⟩).invalidateKey ⟨file, .ssr⟩

/-- The cache with all slots empty. -/
def clear (c : Cache) : Cache := { c with slots := [], graph := c.graph.clear }

/-! ## Current records -/

theorem content?_put (c : Cache) (k l : Key) (content : Content) :
    (c.put k content).content? l = if l.slot = k.slot then some content else c.content? l := by
  unfold content? put putSlot
  simp only [List.find?_cons]
  split
  · next h => simp only [decide_eq_true_eq] at h; simp [h]
  · next h =>
    have h : k.slot ≠ l.slot := by simpa using h
    rw [if_neg (Ne.symm h), List.find?_filter]
    -- The entries that were taken out are for the other slot, so none of them is found.
    congr 2
    funext entry
    rcases entry with ⟨s, _⟩
    by_cases hs : s = l.slot
    · simp [hs, Ne.symm h]
    · simp [hs]

theorem content?_vacate (c : Cache) (k l : Key) :
    (c.vacate k).content? l = if l.slot = k.slot then none else c.content? l := by
  unfold content? vacate
  rw [List.find?_filter]
  split
  · next h =>
    simp only [Option.map_eq_none_iff, List.find?_eq_none]
    rintro ⟨s, _⟩ _
    simp [h]
  · next h =>
    -- The entries that were taken out are for the other slot.
    congr 2
    funext entry
    rcases entry with ⟨s, _⟩
    by_cases hs : s = l.slot
    · simp [hs, h]
    · simp [hs]

theorem content?_congr {c : Cache} {k l : Key} (h : k.slot = l.slot) :
    c.content? k = c.content? l := by
  simp [content?, h]

theorem content?_issue (c : Cache) (k l : Key) (displaced : Option Filed) :
    (c.issue k displaced).content? l =
      if l.slot = k.slot then some (.pending c.nextTicket displaced) else c.content? l :=
  content?_put c k l _

theorem isPending_iff {c : Cache} {k : Key} {ticket : Nat} :
    c.isPending k ticket ↔ ∃ displaced, c.content? k = some (.pending ticket displaced) := by
  unfold isPending
  split
  · next t displaced h => simp [h]
  · next h =>
    constructor
    · intro h'
      cases h'
    · rintro ⟨displaced, hp⟩
      exact absurd hp (h ticket displaced)

theorem content?_redeem (c : Cache) (k l : Key) (ticket : Nat) (r : Record) :
    (c.redeem k ticket r).content? l =
      if c.isPending k ticket ∧ l.slot = k.slot then some (.ready ⟨r, some ticket⟩)
      else c.content? l := by
  unfold redeem
  split
  · next h =>
    simp only [h, true_and]
    exact content?_put c k l _
  · next h => simp [h]

theorem content?_surrender (c : Cache) (k l : Key) (ticket : Nat) (displaced : Option Filed) :
    (c.surrender k ticket displaced).content? l =
      if c.isPending k ticket ∧ l.slot = k.slot then displaced.map .ready
      else c.content? l := by
  unfold surrender
  split
  · next h =>
    cases displaced with
    | some f => simpa [h] using content?_put c k l (.ready f)
    | none => simpa [h] using content?_vacate c k l
  · next h => simp [h]

/-- A claim changes no current record. -/
theorem current?_claim (c : Cache) (k l : Key) (reuse : Reuse) :
    (c.claim k reuse).1.current? l = c.current? l := by
  -- The pending slot keeps what was current as displaced.
  have issue {displaced : Option Filed} (h : c.current? k = displaced) :
      (c.issue k displaced).current? l = c.current? l := by
    unfold current?
    rw [content?_issue]
    split
    · next hs =>
      subst h
      simp [Content.current?, current?, content?_congr hs]
    · rfl
  unfold claim
  split
  · rfl
  · next r h =>
    split
    · rfl
    · exact issue (by simp [current?, h, Content.current?])
  · next h => exact issue (by simp [current?, h])

/-- Giving a ticket up changes no current record, if the record in hand is the one that was
displaced for the ticket. -/
theorem current?_surrender {c : Cache} {k : Key} {ticket : Nat} {displaced : Option Filed}
    (h : c.isPending k ticket → c.current? k = displaced) (l : Key) :
    (c.surrender k ticket displaced).current? l = c.current? l := by
  have hready : (displaced.map Content.ready).bind Content.current? = displaced := by
    cases displaced <;> rfl
  unfold current?
  rw [content?_surrender]
  split
  · -- The slot is pending under the ticket, so what goes back is what was current all along.
    next hp =>
    rw [hready, ← h hp.1, content?_congr hp.2]
    rfl
  · rfl

/-- Redeeming a ticket changes at most the record of that slot. -/
theorem current?_redeem (c : Cache) (k l : Key) (ticket : Nat) (r : Record) :
    (c.redeem k ticket r).current? l =
      if c.isPending k ticket ∧ l.slot = k.slot then some ⟨r, some ticket⟩ else c.current? l := by
  unfold current?
  rw [content?_redeem]
  split <;> rfl

end Cache

end HotComponents
