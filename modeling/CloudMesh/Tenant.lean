import Mathlib.Data.List.Basic

/-!
# Tenants

The ids of rows and tenants. `withTenant` of `packages/db/src/tenant.ts` runs a transaction under
the row-level security of one org: it sees and changes the rows of that org only.
-/

namespace CloudMesh

def isHexDigit (c : Char) : Bool := ('0' ≤ c && c ≤ '9') || ('a' ≤ c && c ≤ 'f')

/-- `UUID_RE`, for the lower-case spelling that Postgres uses. -/
def isUuid (text : String) : Bool :=
  text.toList.length = 36 && text.toList.zipIdx.all fun (c, i) =>
    if i = 8 ∨ i = 13 ∨ i = 18 ∨ i = 23 then c = '-' else isHexDigit c

structure Uuid where
  text : String
  valid : isUuid text = true
  deriving DecidableEq

/-- The check of `withTenant` passes for every org id. -/
abbrev OrgId := Uuid

theorem Uuid.length_text (id : Uuid) : id.text.toList.length = 36 := by
  have hvalid := id.valid
  simp only [isUuid, Bool.and_eq_true, decide_eq_true_eq] at hvalid
  exact hvalid.1

end CloudMesh
