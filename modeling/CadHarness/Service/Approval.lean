import CadHarness.Service.Ports

/-!
# Approval tokens

`cad_harness.security.approval`: issuing and verifying the token of a commit approval. HMAC and the
encoding of the claims are parameters, as is everything about rollback tokens.
-/

namespace CadHarness.Service
open CadHarness.Lib CadHarness.Domain

structure Settings where
  requireCommitApproval : Bool
  approvalSecret : String
  approvalTtl : Time
  rollbackApprovalTtl : Time

structure Profile where
  profileId : String
  version : String
  canonicalUnit : String
  companyApproved : Bool

def Profile.asRef (p : Profile) : String := p.profileId ++ "@" ++ p.version

/-- The signed fields of an approval. -/
structure ScopeClaims where
  approvalId : String
  jobId : String
  documentId : String
  expectedRevision : String
  planHash : String
  approvedBy : String
  expiresAt : Time
  deriving DecidableEq

def scopeClaims (a : ApprovalRecord) : ScopeClaims :=
  ⟨a.approvalId, a.jobId, a.documentId, a.expectedRevision, a.planHash, a.approvedBy, a.expiresAt⟩

structure RollbackApprovalRecord where
  approvalId : String
  jobId : String
  documentId : String
  checkpointId : String
  currentRevision : String
  approvedBy : String
  approvedAt : Time
  expiresAt : Time

/-- What the service is configured with, and the primitives that it uses. -/
structure Config where
  settings : Settings
  profile : Profile
  sha256 : String → String
  /-- `hmac.new(secret, payload, sha256).hexdigest()` -/
  hmacSha256 : String → String → String
  encodeClaims : ScopeClaims → String
  decodeClaims : String → Option ScopeClaims
  makeRollbackApprovalToken : RollbackApprovalRecord → String → String
  verifyRollbackApprovalToken : String → String → RollbackScope → Time → Except Exc RollbackApprovalRecord
  verifyRollbackRecoveryToken : String → String → RollbackScope → Except Exc RollbackApprovalRecord

variable (cfg : Config)

/-- `make_approval_token` -/
def makeApprovalToken (approval : ApprovalRecord) (secret : String) : HarnessM String :=
  if secret = "" then
    throw (raised .approvalRequired "No approval signing secret is configured"
      "Set CAD_HARNESS_APPROVAL_SECRET on this workstation" [])
  else
    let payload := cfg.encodeClaims (scopeClaims approval)
    pure ("v2." ++ payload ++ "." ++ cfg.hmacSha256 secret payload)

/-- `issue_approval` -/
def issueApproval (jobId documentId planHash expectedRevision approvedBy secret : String) (ttl : Time)
    (warningsAcknowledged : List String) : HarnessM (ApprovalRecord × String) := do
  let now ← host .clock
  let approvalId ← host (.newId "approval")
  let approval : ApprovalRecord :=
    { approvalId, jobId, documentId, expectedRevision, planHash, approvedBy, approvedAt := now,
      expiresAt := now + ttl, warningsAcknowledged }
  let token ← makeApprovalToken cfg approval secret
  return (approval, token)

/-- `token.split(".", 2)` into exactly three parts. -/
def splitToken (token : String) : Option (String × String × String) :=
  let s := token.toList
  match s.dropWhile (· != '.') with
  | [] => none
  | _ :: rest =>
      match rest.dropWhile (· != '.') with
      | [] => none
      | _ :: digest =>
          some (.ofList (s.takeWhile (· != '.')), .ofList (rest.takeWhile (· != '.')), .ofList digest)

/-- The payload, the received digest and the expected digest. A token of another shape has none of them. -/
def tokenParts (token secret : String) : String × String × String :=
  match splitToken token with
  | some (version, payload, received) =>
      if version = "v2" ∧ received.length = 64 ∧ payload.toList.all (fun c => decide (c.toNat < 128)) then
        (payload, received, cfg.hmacSha256 secret payload)
      else ("", "", "")
  | none => ("", "", "")

/-- `verify_approval_token` -/
def verifyApprovalToken (token : String) (approval : ApprovalRecord) (secret jobId planHash
    expectedRevision : String) : HarnessM Unit := do
  let (payload, received, expected) := tokenParts cfg token secret
  if received ≠ expected then
    throw (raised .approvalScopeMismatch "Approval token signature is invalid"
      "Request a fresh approval for the current preview" [])
  match cfg.decodeClaims payload with
  | none =>
      throw (raised .approvalScopeMismatch "Approval token claims are invalid"
        "Request a fresh approval for the current preview" [])
  | some claims =>
    if claims ≠ scopeClaims approval then
      throw (raised .approvalScopeMismatch "Approval token does not match the stored approval"
        "Request a fresh approval for the current preview" [])
    let now ← host .clock
    if approval.isExpired now then
      throw (raised .approvalExpired "Approval has expired" "Regenerate the preview and approve again"
        [("expires_at", .num (.int approval.expiresAt))])
    if !approval.matches jobId planHash expectedRevision then
      throw (raised .approvalScopeMismatch "Approval does not cover this job, plan or revision"
        "Regenerate the preview and approve the new plan"
        [("approved_plan_hash", .str approval.planHash), ("submitted_plan_hash", .str planHash),
          ("approved_revision", .str approval.expectedRevision),
          ("submitted_revision", .str expectedRevision)])

end CadHarness.Service
