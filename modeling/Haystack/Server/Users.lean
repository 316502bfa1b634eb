import Haystack.Auth.ScramAgreement
import Haystack.Server.AuthManager

/-!
# The user store

The users of a configuration, their roles and the texts of their credentials.
-/

namespace Haystack
namespace Server

open Std (ExtTreeMap)
open Collections Haystack.Auth

/-! ## Roles -/

inductive HashError
  | tooLong
  | fields (found : Nat)
  | salt
  | iterations
  | storedKey
  | serverKey
  | credentials
  deriving DecidableEq

/-- The text of an error, without what the decoders add to it. -/
def HashError.message : HashError → String
  | .tooLong => "password hash exceeds limit"
  | .fields found =>
    "expected 4 colon-separated fields, got " ++ toString found
  | .salt => "invalid base64 salt: "
  | .iterations => "invalid iterations: "
  | .storedKey => "invalid base64 stored_key: "
  | .serverKey => "invalid base64 server_key: "
  | .credentials => "invalid SCRAM credential structure"

variable {credentials : ScramCredentials}

variable {entry : UserEntry}

variable {config : ExtTreeMap String UserEntry} {records : ExtTreeMap String UserRecord}

variable {name : String}

end Server
end Haystack
