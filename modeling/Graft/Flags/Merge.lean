import Graft.Flags
import Graft.Symbol

/-!
# Merging flags

How the flags of an existing symbol and the flags declared for it become one. The access level
follows the declaration, except that a symbol which must exist keeps a level that already grants
what is asked for. The preserved bits follow the existing symbol, and all other bits follow the
declaration.
-/

namespace Graft.FlagScheme

/-- The bits that stay with the existing symbol: the preserved ones that hold no access level. -/
def keepMask (scheme : FlagScheme) : UInt32 :=
  scheme.preserved &&& ~~~ scheme.accessMask

/-- The bits of the merged flags that hold the access level. -/
def mergedAccess (scheme : FlagScheme) (nested : Bool) (policy : Policy)
    (existing declared : UInt32) : UInt32 :=
  if policy = .failIfMissing
      ∧ (scheme.level nested existing).dominates (scheme.level nested declared) then
    existing &&& scheme.accessMask
  else
    declared &&& scheme.accessMask

/-- The flags of a symbol with flags `existing` for which `declared` are declared under
`policy`. -/
def merge (scheme : FlagScheme) (nested : Bool) (policy : Policy) (existing declared : UInt32) :
    UInt32 :=
  scheme.mergedAccess nested policy existing declared
    ||| ((declared &&& ~~~ scheme.accessMask &&& ~~~ scheme.keepMask)
      ||| (existing &&& scheme.keepMask))

end Graft.FlagScheme
