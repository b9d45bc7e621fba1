import CEar.B64urlDecode
import CEar.Canonical

namespace CEar.Malleability

open B64urlDecode Base64Decode Base64Url Canonical CString Ownership Utils

/-- The bytes that a caller finds in the two out parameters. -/
def decoded (r : DecodeResult) : Option (List UInt8) :=
  r.pout.bind (fun out => out.val.read r.poutSz)

theorem alphabetPrefix_symbols (s : CStr) : Symbols (alphabetPrefix s) :=
  (stops_cells s).symbols

theorem uB64urlDecode_decoded {s : CStr} (hn : (alphabetPrefix s).length ≤ 2 ^ 31 - 4)
    {calloc : Bool} {pout : Option (Ref Block)} {poutSz : Nat} {L L' : Ledger Kind} {r : DecodeResult}
    (hrun : uB64urlDecode calloc (some s) pout poutSz L = some (r, L')) (hret : r.ret = 0) :
    decoded r = some (decode (alphabetPrefix s)) := by
  obtain ⟨-, id, rfl⟩ := uB64urlDecode_accepted hn hrun hret
  rw [decoded, Option.bind_some, Block.read, if_pos (decode_length_le_size _), decodedBlock_window]

/-- An accepted text is the encoding of what comes out of it up to its canonical
form, and that form is all that two texts of one key have in common. -/
theorem uB64urlDecode_malleable :
    (∀ s calloc pout poutSz L r L', (alphabetPrefix s).length ≤ 2 ^ 31 - 4 →
      uB64urlDecode calloc (some s) pout poutSz L = some (r, L') → r.ret = 0 →
        ∃ k, decoded r = some k ∧ encode k = canonical (alphabetPrefix s)) ∧
    ∀ s calloc pout poutSz L r L' t calloc' pout' poutSz' M r' M',
      (alphabetPrefix s).length ≤ 2 ^ 31 - 4 → (alphabetPrefix t).length ≤ 2 ^ 31 - 4 →
      uB64urlDecode calloc (some s) pout poutSz L = some (r, L') → r.ret = 0 →
      uB64urlDecode calloc' (some t) pout' poutSz' M = some (r', M') → r'.ret = 0 →
        (decoded r = decoded r' ↔
          canonical (alphabetPrefix s) = canonical (alphabetPrefix t)) := by
  constructor
  · intro s calloc pout poutSz L r L' hn hrun hret
    exact ⟨_, uB64urlDecode_decoded hn hrun hret, encode_decode (alphabetPrefix_symbols s)⟩
  · intro s calloc pout poutSz L r L' t calloc' pout' poutSz' M r' M' hs ht hrun hret hrun' hret'
    rw [uB64urlDecode_decoded hs hrun hret, uB64urlDecode_decoded ht hrun' hret', Option.some.injEq]
    exact decode_eq_iff (alphabetPrefix_symbols s) (alphabetPrefix_symbols t)

/-- `Y2k` and `Y2l` differ in bits that are not used. -/
theorem uB64urlDecode_malleable_sample :
    ∃ r L' r' L'', uB64urlDecode true (some (lit "Y2k")) none 0 Ledger.empty = some (r, L') ∧
      uB64urlDecode true (some (lit "Y2l=")) none 0 Ledger.empty = some (r', L'') ∧
      r.ret = 0 ∧ r'.ret = 0 ∧ decoded r = decoded r' ∧ (decoded r).map encode = some (ascii "Y2k") := by
  have hk : (alphabetPrefix (lit "Y2k")).length = 3 := by decide +kernel
  have hl : (alphabetPrefix (lit "Y2l=")).length = 3 := by decide +kernel
  have hsame : canonical (alphabetPrefix (lit "Y2k")) = canonical (alphabetPrefix (lit "Y2l=")) := by
    decide +kernel
  have hcanonical : canonical (alphabetPrefix (lit "Y2k")) = ascii "Y2k" := by decide +kernel
  obtain ⟨r, L', hrun, hret⟩ := uB64urlDecode_accepts (s := lit "Y2k") (by omega) (by omega) none 0
    Ledger.empty
  obtain ⟨r', L'', hrun', hret'⟩ := uB64urlDecode_accepts (s := lit "Y2l=") (by omega) (by omega) none 0
    Ledger.empty
  obtain ⟨hencode, hequal⟩ := uB64urlDecode_malleable
  obtain ⟨k, hdecoded, hk'⟩ := hencode _ _ _ _ _ _ _ (by omega) hrun hret
  refine ⟨r, L', r', L'', hrun, hrun', hret, hret', ?_, ?_⟩
  · exact (hequal _ _ _ _ _ _ _ _ _ _ _ _ _ _ (by omega) (by omega) hrun hret hrun' hret').mpr hsame
  · rw [hdecoded, Option.map_some, hk', hcanonical]

end CEar.Malleability
