import Mathlib.Data.List.Basic

namespace Permissions

abbrev Uuid := Nat
abbrev Timestamp := Int

inductive RoleName where
  | admin
  | analyst
  | viewer
  | other (name : String)
  deriving DecidableEq, Repr

inductive Permission where
  | socRead
  | incidentsWrite
  | investigationsCreate
  | responsesPropose
  | responsesApprove
  | responsesApproveTier2
  | responsesExecute
  | usersManage
  | apiKeysManage
  | auditRead
  | auditVerify
  deriving DecidableEq, Repr

def Permission.value : Permission → String
  | .socRead => "soc:read"
  | .incidentsWrite => "incidents:write"
  | .investigationsCreate => "investigations:create"
  | .responsesPropose => "responses:propose"
  | .responsesApprove => "responses:approve"
  | .responsesApproveTier2 => "responses:approve:tier2"
  | .responsesExecute => "responses:execute"
  | .usersManage => "users:manage"
  | .apiKeysManage => "api_keys:manage"
  | .auditRead => "audit:read"
  | .auditVerify => "audit:verify"

def Permission.all : List Permission :=
  [.socRead, .incidentsWrite, .investigationsCreate, .responsesPropose, .responsesApprove,
    .responsesApproveTier2, .responsesExecute, .usersManage, .apiKeysManage, .auditRead,
    .auditVerify]

def permissionsForRole : RoleName → List Permission
  | .viewer => [.socRead]
  | .analyst =>
      [.socRead, .incidentsWrite, .investigationsCreate, .responsesPropose, .responsesApprove,
        .auditRead]
  | .admin => Permission.all
  | .other _ => []

def RoleName.text : RoleName → String
  | .admin => "admin"
  | .analyst => "analyst"
  | .viewer => "viewer"
  | .other name => name

theorem approve_roles (role : RoleName) :
    .responsesApprove ∈ permissionsForRole role ↔ role = .admin ∨ role = .analyst := by
  cases role <;> simp [permissionsForRole, Permission.all]

end Permissions
