/-!
# Claims and requirements

A requirement is a list of groups of roles. A caller meets it with one role of each
group. Roles are the claims of a caller of one claim type.
-/

namespace TypedQuery

/-- The claims of a caller, and the claim type under which roles are listed. -/
structure Claims where
  roleType : String
  claims : List (String × String)
deriving DecidableEq

namespace Claims

/-- The claim type of roles unless another is given. -/
def defaultRoleType : String := "role"

/-- The caller without claims. -/
def none : Claims := ⟨defaultRoleType, []⟩

/-- Adds a claim. -/
def withClaim (claims : Claims) (type value : String) : Claims :=
  { claims with claims := claims.claims ++ [(type, value)] }

/-- Adds a role. -/
def withRole (claims : Claims) (role : String) : Claims :=
  claims.withClaim claims.roleType role

/-- The caller has a role. -/
def hasRole (claims : Claims) (role : String) : Bool :=
  claims.claims.any fun claim => claim.1 = claims.roleType && claim.2 = role

end Claims

/-- Groups of roles, of each of which a caller needs one. -/
structure Requirement where
  groups : List (List String)
deriving DecidableEq

namespace Requirement

/-- A caller has a role of a group. -/
def meets (claims : Claims) (group : List String) : Bool :=
  group.any claims.hasRole

/-- The groups of which a caller has no role. -/
def unmet (requirement : Requirement) (claims : Claims) : List (List String) :=
  requirement.groups.filter fun group => !meets claims group

end Requirement

end TypedQuery
