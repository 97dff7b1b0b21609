import HotComponents.Cache.Call

/-!
# A cache and the calls on it

All that happens to a cache is a sequence of moves: a call is made, resumed, finished or cancelled,
or the cache is changed directly. Moves may come in any order; one that does not fit the state of its
call does nothing. What is proved of all sequences of moves therefore holds however the calls are
scheduled.

* `run_append`: a run goes on from where an earlier run ended;
* `length_calls_apply`: a move adds at most the call it makes, and none is forgotten.
-/

namespace HotComponents

/-- A cache and the calls made on it so far, in order. -/
structure Workbench where
  cache : Cache := {}
  calls : List Call := []
deriving Repr

/-- Something that happens to a cache or to a call on it. -/
inductive Move where
  /-- A call is made. -/
  | make (key : Key) (intent : Intent)
  /-- A call goes on as far as it can. -/
  | resume (i : Nat)
  /-- The compute of a call ends. -/
  | finish (i : Nat) (result : Except BuildError Record)
  /-- A call is given up. -/
  | cancel (i : Nat)
  /-- A record is put into its slot. -/
  | replace (r : Record)
  /-- Both slots of a file are emptied. -/
  | invalidate (file : FilePath)
  /-- One slot is emptied. -/
  | invalidateKey (k : Key)
  /-- All slots are emptied. -/
  | clear

namespace Workbench

/-- The workbench after one of its calls has moved and changed the cache. -/
def update (w : Workbench) (i : Nat) (cache : Cache) (call : Call) : Workbench :=
  ⟨cache, w.calls.set i call⟩

/-- The workbench after a move. -/
def apply (w : Workbench) : Move → Workbench
  | .make key intent => { w with calls := w.calls ++ [{ key, intent }] }
  | .resume i =>
    match w.calls[i]? with
    | some call =>
      let (cache, call, _) := call.resume w.cache
      w.update i cache call
    | none => w
  | .finish i result =>
    match w.calls[i]? with
    | some call =>
      let (cache, call, _) := call.finish w.cache result
      w.update i cache call
    | none => w
  | .cancel i =>
    match w.calls[i]? with
    | some call =>
      let (cache, call) := call.cancel w.cache
      w.update i cache call
    | none => w
  | .replace r => { w with cache := w.cache.replace r }
  | .invalidate file => { w with cache := w.cache.invalidate file }
  | .invalidateKey k => { w with cache := w.cache.invalidateKey k }
  | .clear => { w with cache := w.cache.clear }

/-- What is said in a move. -/
def notes (w : Workbench) : Move → Journal
  | .resume i => w.calls[i]?.elim [] fun call => (call.resume w.cache).2.2
  | .finish i result => w.calls[i]?.elim [] fun call => (call.finish w.cache result).2.2
  | .invalidate file =>
    w.cache.invalidateNotes ⟨file, .dom⟩ ++
      (w.cache.invalidateKey ⟨file, .dom⟩).invalidateNotes ⟨file, .ssr⟩
  | .invalidateKey k => w.cache.invalidateNotes k
  | _ => []

/-- The workbench after a sequence of moves. -/
def run (w : Workbench) (moves : List Move) : Workbench := moves.foldl apply w

theorem run_append (w : Workbench) (moves more : List Move) :
    w.run (moves ++ more) = (w.run moves).run more := by
  simp [run]

/-- What the call with a given number has returned. -/
def answer? (w : Workbench) (i : Nat) : Option Answer := w.calls[i]?.bind Call.answer?

/-- How far the call with a given number has come. -/
def phase? (w : Workbench) (i : Nat) : Option Phase := w.calls[i]?.map Call.phase

/-- The call with a given number computes. -/
def isComputing (w : Workbench) (i : Nat) : Bool :=
  match w.phase? i with
  | some (.computing _ _) => true
  | _ => false

/-- The call with a given number can go on by itself. -/
def isRunnable (w : Workbench) (i : Nat) : Bool := w.calls[i]?.any (·.isRunnable w.cache)

/-- No call is forgotten, and only making one adds one. -/
theorem length_calls_apply (w : Workbench) (m : Move) :
    (w.apply m).calls.length =
      w.calls.length + (match m with | .make _ _ => 1 | _ => 0) := by
  cases m <;> simp only [apply]
  · simp
  all_goals try (split <;> simp [update])
  all_goals rfl

end Workbench

end HotComponents
