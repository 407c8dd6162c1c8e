import Mathlib.Data.Finset.Dedup
import Mathlib.Data.Finset.Lattice.Basic
import Masonwing.Kernel.DependencyGraph

/-!
# Installing with migrations

`InstallRegistry` of `crates/kernel/src/registry.rs`. A migration is a closure with a state of its
own; it comes as a function on that state, over any type of states.
-/

namespace Masonwing

variable {σ : Type}

/-- The installed plugins. -/
structure InstallRegistry where
  installed : Finset OpaqueId

/-- `install_with_migration`: the migrations of a plan, in its order, or only an error. -/
def InstallRegistry.installWithMigration (registry : InstallRegistry) (graph : DependencyGraph)
    (root : OpaqueId) (migrate : σ → OpaqueId → σ) (s : σ) :
    (InstallRegistry × σ) × Except RegistryError (List OpaqueId) :=
  match graph.resolve root with
  | .error e => ((registry, s), .error e)
  | .ok plan =>
    (({ installed := registry.installed ∪ plan.toFinset }, plan.foldl migrate s), .ok plan)

end Masonwing
