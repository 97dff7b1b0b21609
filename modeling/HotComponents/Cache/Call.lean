import HotComponents.Cache.Basic

/-!
# Calls on the cache

A call asks for a record, and may have to compute it or to wait for whoever computes it. It moves
from one point to the next only when it is resumed, finished or cancelled; between two moves
anything may happen to the cache.

* A call that *obtains* takes a record it accepts, waits at a pending slot, or computes. It takes
  what is announced for the ticket it waited for, unless that is a record it does not accept, and
  looks again if the ticket was abandoned.
* A call that *recomputes* always computes; whatever it waited for, it looks again. Its error is its
  own: others who waited look again.
* A call that *settles* never computes.

* `Call.resume_of_computing`: only finishing or cancelling moves a call that computes;
* `Call.resume_of_ended`: a call that has ended stays as it is.
-/

namespace HotComponents

/-- What a call is for. -/
inductive Intent where
  /-- A record, computed unless one is accepted. -/
  | obtain (reuse : Reuse)
  /-- A new record, and the record it replaces. -/
  | recompute
  /-- The record that is there or on its way. -/
  | settle
deriving DecidableEq, Repr

/-- What a call returns. -/
inductive Answer (ρ : Type := Record) where
  | record (r : ρ)
  | failure (e : BuildError)
  /-- A new record and the one it replaced. -/
  | recomputed (previous : Option ρ) (r : ρ)
  /-- There is no record and none on its way. -/
  | absent
deriving DecidableEq, Repr

namespace Answer

variable {ρ σ : Type}

/-- The answer with its records seen in another way. -/
def map (g : ρ → σ) : Answer ρ → Answer σ
  | record r => record (g r)
  | failure e => failure e
  | recomputed previous r => recomputed (previous.map g) (g r)
  | absent => absent

/-- The records of an answer. -/
def records : Answer ρ → List ρ
  | record r => [r]
  | recomputed previous r => previous.toList ++ [r]
  | _ => []

end Answer

/-- How far a call has come. -/
inductive Phase where
  /-- It has not looked at its slot yet. -/
  | arriving
  /-- It waits to hear of a ticket. -/
  | waiting (ticket : Nat)
  /-- It computes under its own ticket. -/
  | computing (ticket : Nat) (displaced : Option Filed)
  /-- It has returned. -/
  | returned (a : Answer Filed)
  /-- It was cancelled. -/
  | cancelled
deriving DecidableEq, Repr

/-- A call on the cache. -/
structure Call where
  key : Key
  intent : Intent
  phase : Phase := .arriving
deriving DecidableEq, Repr

namespace Call

/-- What the call takes instead of computing. -/
def reuse (call : Call) : Reuse :=
  match call.intent with
  | .obtain reuse => reuse
  | .recompute => .never
  | .settle => .any

/-- The call at another point. -/
def atPhase (call : Call) (phase : Phase) : Call := { call with phase }

/-- The call looks at its slot. -/
def look (call : Call) (c : Cache) : Cache × Call × Journal :=
  match call.intent with
  | .settle =>
    match c.content? call.key with
    | some (.ready f) => (c, call.atPhase (.returned (.record f)), [])
    | some (.pending ticket _) => (c, call.atPhase (.waiting ticket), [])
    | none => (c, call.atPhase (.returned .absent), [])
  | _ =>
    let (c', claim) := c.claim call.key call.reuse
    let notes := Cache.claimNotes call.key claim
    match claim with
    | .hit f => (c', call.atPhase (.returned (.record f)), notes)
    | .wait ticket => (c', call.atPhase (.waiting ticket), notes)
    | .lead ticket displaced => (c', call.atPhase (.computing ticket displaced), notes)

/-- The answer that an announcement gives to the call; without one it has to look again. -/
def heard? (call : Call) (a : Announcement) : Option (Answer Filed) :=
  match call.intent, a with
  -- A new record is asked for: one that was begun before the call will not do.
  | .recompute, _ => none
  -- Nobody computes any more, so those who waited race to.
  | _, .abandoned => none
  | _, .failure e => some (.failure e)
  | .settle, .record f => some (.record f)
  | .obtain reuse, .record f => if reuse.accepts f.record then some (.record f) else none

/-- The call goes on as far as it can by itself. -/
def resume (call : Call) (c : Cache) : Cache × Call × Journal :=
  match call.phase with
  | .arriving => call.look c
  | .waiting ticket =>
    match c.announcement? ticket with
    | none => (c, call, [])
    | some a =>
      match call.heard? a with
      | some answer => (c, call.atPhase (.returned answer), [])
      | none => call.look c
  | _ => (c, call, [])

/-- What the holder of a ticket announces when its compute has failed. -/
def failureAnnouncement (call : Call) (e : BuildError) : Announcement :=
  match call.intent with
  | .recompute => .abandoned
  | _ => .failure e

/-- What the call returns for a record it computed. -/
def computedAnswer (call : Call) (displaced : Option Filed) (f : Filed) : Answer Filed :=
  match call.intent with
  | .recompute => .recomputed displaced f
  | _ => .record f

/-- The compute of the call has ended. -/
def finish (call : Call) (c : Cache) (result : Except BuildError Record) :
    Cache × Call × Journal :=
  match call.phase with
  | .computing ticket displaced =>
    match result with
    -- Those who wait are given the record even if the ticket was superseded and it is not kept.
    | .ok r =>
      ((c.redeem call.key ticket r).announce ticket (.record ⟨r, some ticket⟩),
        call.atPhase (.returned (call.computedAnswer displaced ⟨r, some ticket⟩)),
        c.redeemNotes call.key ticket)
    | .error e =>
      ((c.surrender call.key ticket displaced).announce ticket (call.failureAnnouncement e),
        call.atPhase (.returned (.failure e)), [])
  | _ => (c, call, [])

/-- The call is given up by whoever made it. -/
def cancel (call : Call) (c : Cache) : Cache × Call :=
  match call.phase with
  | .computing ticket displaced =>
    ((c.surrender call.key ticket displaced).announce ticket .abandoned, call.atPhase .cancelled)
  | .returned _ => (c, call)
  | _ => (c, call.atPhase .cancelled)

/-- The call can go on by itself. -/
def isRunnable (call : Call) (c : Cache) : Bool :=
  match call.phase with
  | .arriving => true
  | .waiting ticket => (c.announcement? ticket).isSome
  | _ => false

/-- The call has returned or was cancelled. -/
def hasEnded (call : Call) : Bool :=
  match call.phase with
  | .returned _ => true
  | .cancelled => true
  | _ => false

/-- What the call has returned. -/
def answer? (call : Call) : Option Answer :=
  match call.phase with
  | .returned a => some (a.map Filed.record)
  | _ => none

theorem resume_of_computing {call : Call} {ticket : Nat} {displaced : Option Filed}
    (h : call.phase = .computing ticket displaced) (c : Cache) : call.resume c = (c, call, []) := by
  simp [resume, h]

theorem resume_of_ended {call : Call} (h : call.hasEnded) (c : Cache) :
    call.resume c = (c, call, []) := by
  unfold hasEnded at h
  unfold resume
  split <;> simp_all

end Call

end HotComponents
