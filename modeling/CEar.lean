import CEar.Atomicity
import CEar.Base64Exact
import CEar.Diagnosis
import CEar.Enumeration
import CEar.KeyAttestation
import CEar.Lifetimes
import CEar.Malleability
import CEar.OutOfMemory
import CEar.Provenance
import CEar.RecordList
import CEar.Session
import CEar.Status
import CEar.VerifyToolTrust
