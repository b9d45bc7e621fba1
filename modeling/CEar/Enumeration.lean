import CEar.Accessors
import CEar.Tokens

namespace CEar.Enumeration

open Accessors CString Ear Gates JsonValue Ownership Report Tokens Utils Verify

variable {Jwt : Type} {submods : Option Json} {name : CStr} {b : Buffer} {f : Failure}

end CEar.Enumeration
