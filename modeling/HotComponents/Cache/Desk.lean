import HotComponents.Cache.Workbench
import HotComponents.Rounds

/-!
# A desk for calls on one cache

Calls with names, whose computes wait until their results are handed in. A result can be there when
the call is made, or be handed in once later, also before the call computes or when it never will.

* `handIn_of_not_due`: nothing can be handed in twice.
-/

namespace HotComponents

/-- A call with a name, and the result of its compute. -/
structure Order where
  /-- What the call is known as. -/
  name : String
  /-- The number of the call. -/
  call : Nat
  /-- The result, once it is there. -/
  result : Option (Except BuildError Record)
  /-- A result can still be handed in. -/
  due : Bool
  /-- The standing that was last reported. -/
  reported : Option Standing := none

/-- A cache with named calls on it. -/
structure Desk where
  bench : Workbench := {}
  orders : List Order := []
  journal : Journal := []

namespace Desk

/-- The desk after a move, and what is said in it. -/
def act (d : Desk) (m : Move) : Desk :=
  { d with bench := d.bench.apply m, journal := d.journal ++ d.bench.notes m }

/-- A new call. -/
def order (d : Desk) (name : String) (key : Key) (intent : Intent)
    (result : Option (Except BuildError Record)) : Desk :=
  let number := d.bench.calls.length
  let d := d.act (.make key intent)
  { d with orders := d.orders ++ [{ name, call := number, result, due := result.isNone }] }

/-- The number of the latest order with a name. -/
def find? (d : Desk) (name : String) : Option Nat :=
  (d.orders.zipIdx.reverse.find? fun (o, _) => o.name == name).map Prod.snd

/-- A result, or nothing in its place, is handed in for an order; none if no result is due. -/
def handIn? (d : Desk) (i : Nat) (result : Option (Except BuildError Record)) : Option Desk := do
  let o ← d.orders[i]?
  if o.due then some { d with orders := d.orders.set i { o with result, due := false } } else none

theorem handIn_of_not_due {d : Desk} {i : Nat} {o : Order} (ho : d.orders[i]? = some o)
    (h : o.due = false) (result : Option (Except BuildError Record)) :
    d.handIn? i result = none := by
  simp [handIn?, ho, h]

/-- An order is cancelled. -/
def cancel (d : Desk) (i : Nat) : Desk :=
  d.orders[i]?.elim d fun o => d.act (.cancel o.call)

/-- An order goes on as far as it can. -/
def resume (d : Desk) (i : Nat) : Desk :=
  match d.orders[i]? with
  | none => d
  | some o =>
    let d := d.act (.resume o.call)
    match d.bench.isComputing o.call, o.result with
    | true, some result => d.act (.finish o.call result)
    | _, _ => d

/-- The order can go on. -/
def isRunnable (d : Desk) (o : Order) : Bool :=
  d.bench.isRunnable o.call || (d.bench.isComputing o.call && o.result.isSome)

/-- The orders that can go on, in order. -/
def runnable (d : Desk) : List Nat :=
  (d.orders.zipIdx.filter fun (o, _) => d.isRunnable o).map Prod.snd

/-- More rounds than the orders can take: each hears of each other at most once. -/
def budget (d : Desk) : Nat := (d.orders.length + 2) * (d.orders.length + 2)

/-- The desk when no order can go on. -/
def settle (d : Desk) : Desk := Rounds.settle runnable resume d.budget d

/-- How a call stands. -/
def standing (d : Desk) (o : Order) : Standing :=
  match d.bench.phase? o.call with
  | some (.computing _ _) => .computing
  | some (.returned _) => .done
  | some .cancelled => .cancelled
  | _ => .waiting

/-- The orders whose standing is not the one that was last reported, and the desk in which it is. -/
def report (d : Desk) : List (Order × Standing) × Desk :=
  let changed := (d.orders.map fun o => (o, d.standing o)).filter fun (o, s) => o.reported ≠ some s
  (changed, { d with orders := d.orders.map fun o => { o with reported := some (d.standing o) } })

end Desk

end HotComponents
