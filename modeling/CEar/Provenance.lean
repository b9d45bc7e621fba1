import CEar.ClaimsStore
import CEar.KeyAttestation
import CEar.Status

namespace CEar.Provenance

open Accessors AnyLength Base64Decode ClaimsStore Contract CString Ear Gates JsonValue KeyAttestation
  Session Simulation Status Tokens Utils Verify
open Base64Url (decode)

variable {Alg Jwt : Type} [DecidableEq Alg] {obs : Observations Alg Jwt}

end CEar.Provenance
