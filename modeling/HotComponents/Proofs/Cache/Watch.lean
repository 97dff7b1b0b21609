import HotComponents.Proofs.Cache.Restricted
import HotComponents.Proofs.Cache.Settled

/-!
# A desk that is watched

What is done at a desk from outside, event by event, and what can be seen of it: which computes are
invoked, and what comes back when a record is read, put in or dropped. A call is known by its key and
its number among the calls for that slot, so it is the same call also in a run that leaves out what
is done with other keys.

* `Desk.Event.concerns`: which events can matter to a key;
* `Watched.settle_eq_iterate`: a watched desk settles in the rounds that it allows or in more.
-/

namespace HotComponents

namespace Desk

/-- Something that is done at a desk. -/
inductive Event where
  /-- A call is made; the result of its compute may be there already. -/
  | order (name : String) (key : Key) (intent : Intent)
      (result : Option (Except BuildError Record))
  /-- The result of the compute of a call is handed in, or nothing in its place. -/
  | handIn (key : Key) (n : Nat) (result : Option (Except BuildError Record))
  /-- A call is given up. -/
  | cancel (key : Key) (n : Nat)
  /-- The record in a slot is read. -/
  | peek (key : Key)
  /-- A record is put into its slot. -/
  | replace (r : Record)
  /-- One slot is emptied. -/
  | invalidateKey (key : Key)
  /-- Both slots of a file are emptied. -/
  | invalidate (file : FilePath)
  /-- All slots are emptied. -/
  | clear
  /-- The orders that can go on take their turns once. -/
  | round
  /-- They take their turns until none can go on. -/
  | settle

namespace Event

/-- The key that the event is addressed to. -/
def addressee? : Event → Option Key
  | order _ key _ _ | handIn key _ _ | cancel key _ | peek key | invalidateKey key => some key
  | replace r => some r.key
  | _ => none

/-- The event is addressed to the slot of a key. -/
def isFor (k : Key) (e : Event) : Bool := e.addressee?.any (·.same k)

/-- The event is addressed to the slot of a key, or it is for its file or for all. -/
def concerns (k : Key) : Event → Bool
  | invalidate file => file.same k.file
  | e => e.addressee?.all (·.same k)

end Event

/-- Something that is seen at a desk. -/
inductive Sight where
  /-- The compute of a call is invoked. -/
  | invoked (key : Key) (n : Nat)
  /-- What a slot was found to hold. -/
  | peeked (key : Key) (found : Option Record)
  /-- What a record has replaced. -/
  | replaced (key : Key) (previous : Option Record)
  /-- Whether a slot held anything when it was emptied. -/
  | emptied (key : Key) (held : Bool)
deriving DecidableEq

/-- The key that something is seen of. -/
def Sight.key : Sight → Key
  | invoked key _ | peeked key _ | replaced key _ | emptied key _ => key

/-- The number among all calls of the call with a number among those for a slot. -/
def number? (d : Desk) (k : Key) (n : Nat) : Option Nat := (d.bench.numbers k)[n]?

/-- What the call with a number among those for a slot has returned. -/
def answerFor? (d : Desk) (k : Key) (n : Nat) : Option Answer :=
  (d.number? k n).bind d.bench.answer?

/-- How that call stands. -/
def standingFor? (d : Desk) (k : Key) (n : Nat) : Option Standing :=
  (d.number? k n).bind fun i => d.orders[i]?.map d.standing

/-- What is seen when a call is resumed: its compute is invoked if it begins to compute. -/
def invokes (d : Desk) (i : Nat) : List Sight :=
  match d.bench.calls[i]? with
  | none => []
  | some call =>
    if !d.bench.isComputing i && (d.bench.apply (.resume i)).isComputing i then
      [.invoked call.key ((d.bench.numbers call.key).idxOf i)]
    else []

end Desk

/-- A desk, and what has been seen at it, in order. -/
structure Watched where
  desk : Desk := {}
  seen : List Desk.Sight := []

namespace Watched

open Desk

/-- The desk after a move, and something that is seen in it. -/
def act (w : Watched) (m : Move) (seen : List Sight) : Watched where
  desk := w.desk.act m
  seen := w.seen ++ seen

/-- An order goes on as far as it can. -/
def resume (w : Watched) (i : Nat) : Watched where
  desk := w.desk.resume i
  seen := w.seen ++ w.desk.orders[i]?.elim [] fun o => w.desk.invokes o.call

/-- The orders that can go on, in order. -/
def runnable (w : Watched) : List Nat := w.desk.runnable

/-- The orders that can go on take their turns. -/
def round : Watched → Watched := Rounds.round runnable resume

/-- The desk when no order can go on. -/
def settle (w : Watched) : Watched := Rounds.settle runnable resume w.desk.budget w

/-- The desk after an event. -/
def apply (w : Watched) : Event → Watched
  | .order name key intent result => { w with desk := w.desk.order name key intent result }
  | .handIn key n result =>
    { w with desk := ((w.desk.number? key n).bind (w.desk.handIn? · result)).getD w.desk }
  | .cancel key n => { w with desk := (w.desk.number? key n).elim w.desk w.desk.cancel }
  | .peek key => { w with seen := w.seen ++ [.peeked key (w.desk.bench.cache.peek key)] }
  | .replace r => w.act (.replace r) [.replaced r.key (w.desk.bench.cache.peek r.key)]
  | .invalidateKey key =>
    w.act (.invalidateKey key) [.emptied key (w.desk.bench.cache.content? key).isSome]
  | .invalidate file => w.act (.invalidate file) []
  | .clear => w.act .clear []
  | .round => w.round
  | .settle => w.settle

/-- The desk after events from the beginning. -/
def after (events : List Event) : Watched := events.foldl apply {}

/-! ## Rounds at a watched desk -/

/-- At a watched desk a round is a round of the desk. -/
theorem desk_round (w : Watched) :
    w.round.desk = Rounds.round Desk.runnable Desk.resume w.desk :=
  (List.foldl_hom Watched.desk (fun _ _ => rfl)).symm

/-- So are any number of rounds. -/
theorem desk_iterate (w : Watched) (n : Nat) :
    (round^[n] w).desk = (Rounds.round Desk.runnable Desk.resume)^[n] w.desk :=
  (Function.Semiconj.iterate_right (f := Watched.desk) desk_round n).eq w

/-- To settle is to go on in rounds, for as many as the desk allows or for more. -/
theorem settle_eq_iterate {w : Watched} (h : w.desk.Orderly) {n : Nat} (hn : w.desk.budget ≤ n) :
    w.settle = round^[n] w := by
  have hidle : runnable (round^[w.desk.budget] w) = [] := by
    rw [runnable, desk_iterate]
    exact Desk.runnable_iterate h
  obtain ⟨more, rfl⟩ := Nat.exists_eq_add_of_le hn
  rw [Nat.add_comm, Function.iterate_add_apply, settle, Rounds.settle_eq_iterate]
  exact (Function.iterate_fixed (Rounds.round_of_idle hidle) more).symm

end Watched

end HotComponents
