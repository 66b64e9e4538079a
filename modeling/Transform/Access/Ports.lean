import Transform.Lib.Proc
import Transform.Access.Records

/-!
# Access.Ports — what the authorization server asks of its environment

The tables of grants, codes and tokens statement by statement, the registered clients, the clock, the ids and the
random values, and the caller, to whom a call responds.
-/

namespace Transform.Access

open Lib Conversions

/-- An exception: its class, and for an `MCPAccessError` the OAuth error code and the description. -/
structure AccessError where
  name : String
  error : String := ""
  description : String := ""
  deriving DecidableEq, Repr

/-- The parameters of the redirect a consent answers with. -/
structure RedirectAnswer where
  base : String
  code : String
  state : Option String
  deriving DecidableEq, Repr

/-- What a call returns. -/
inductive AccessAnswer
  | redirect (answer : RedirectAnswer)
  | tokens (issued : IssuedTokens)
  | record (found : Option TokenRecord)
  | grant (found : Option AgentGrant)
  | done

inductive AccessOp
  | now
  | uuid4
  | tokenUrlsafe
  | getClient (clientId : String)
  | selectGrant (userId : ℤ) (clientId : String)
  | selectOwned (grantId : String) (userId : ℤ)
  | getGrant (grantId : String)
  | insertGrant (row : GrantRow)
  | updateGrant (loaded row : GrantRow)
  | touchGrant (grantId : String) (usedAt : Instant)
  | insertCode (row : CodeRow)
  | takeCode (codeHash : String) (now : Instant)
  | insertToken (row : TokenRow)
  | getToken (tokenHash : String)
  | revokeToken (tokenHash : String) (revokedAt : Instant)
  | revokeTokensForGrant (grantId : String) (revokedAt : Instant)
  | respond (answer : AccessAnswer)

abbrev AccessOp.Ans : AccessOp → Type
  | .now => Instant
  | .uuid4 => String
  | .tokenUrlsafe => String
  | .getClient _ => Option OAuthClientRecord
  | .selectGrant _ _ => Option GrantRow
  | .selectOwned _ _ => Option GrantRow
  | .getGrant _ => Option GrantRow
  | .takeCode _ _ => Option CodeRow
  | .getToken _ => Option TokenRow
  | .revokeTokensForGrant _ _ => ℕ
  | .insertGrant _ => Unit
  | .updateGrant _ _ => Unit
  | .touchGrant _ _ => Unit
  | .insertCode _ => Unit
  | .insertToken _ => Unit
  | .revokeToken _ _ => Unit
  | .respond _ => Unit

/-- The signature of the authorization server. -/
abbrev AccessSig : Sig := ⟨AccessOp, AccessOp.Ans, AccessError⟩

/-- A program of the authorization server. -/
abbrev AccessAct (α : Type) : Type := Act AccessSig AccessError α

/-- One call of the repository, the clock or a generator. -/
def call (op : AccessOp) : AccessAct op.Ans := @ask AccessSig op

/-- What the service is built with, and the digest it stores secrets under.  The clients are those the SDK has
registered, each under an id of its own.  `repr` is Python's `repr` of a string or `None`. -/
structure AccessContext where
  clients : String → Option OAuthClientRecord
  resourceUrl : String
  accessTtl : ℤ := 60 * 60 * 1000000
  refreshTtl : ℤ := 30 * 24 * 60 * 60 * 1000000
  codeTtl : ℤ := 5 * 60 * 1000000
  grantable : List AgentScope := allScopes
  hashSecret : String → String
  repr : Option String → String

/-- `str.rstrip("/")`. -/
def rstripSlash (s : String) : String := String.ofList (s.toList.reverse.dropWhile (· = '/')).reverse

/-- The audience the server mints for and accepts. -/
def AccessContext.resource (ctx : AccessContext) : String := rstripSlash ctx.resourceUrl

end Transform.Access
