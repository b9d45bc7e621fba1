import CEar.Accessors
import CEar.Tokens

namespace CEar.KeyAttestation

open Accessors B64urlDecode Base64Decode Base64Url CString Ear Gates JsonValue Ownership Report Tokens Utils
  Verify

variable {Jwt : Type} {submods : Option Json} {appRec text : CStr}

def akpubClaim (submods : Option Json) (appRec : CStr) : Option Json :=
  jsonObjectGet (jsonObjectGet (jsonObjectGet submods appRec) (lit "ear.veraison.key-attestation"))
    (lit "akpub")

theorem akpubOf_eq_ok :
    akpubOf submods appRec = .ok text ↔ akpubClaim submods appRec = some (.string text) := by
  rw [akpubOf, recordOf, akpubClaim]
  cases jsonObjectGet submods appRec with
  | none => simp [found]
  | some submod =>
      cases hatt : jsonObjectGet (some submod) (lit "ear.veraison.key-attestation") with
      | none => simp [found, hatt]
      | some attestation =>
          simp only [found, hatt, ok_bind]
          cases jsonObjectGet (some attestation) (lit "akpub") with
          | none => simp [jsonStringValue]
          | some v => cases v <;> simp [jsonStringValue]

theorem alphabetPrefix_encode {k rest : List UInt8} (htext : text.bytes = encode k ++ rest)
    (hrest : ∀ c ∈ rest, c = 61) : alphabetPrefix text = encode k := by
  rw [alphabetPrefix, htext, List.takeWhile_append_of_pos (encode_isSymbol k)]
  have hstop : rest.takeWhile isSymbol = [] := by
    cases rest with
    | nil => rfl
    | cons c rest =>
        obtain rfl := hrest c List.mem_cons_self
        exact List.takeWhile_cons_of_neg (by decide)
  rw [hstop, List.append_nil]

theorem two_le_encode_length {k : List UInt8} (hk : k ≠ []) : 2 ≤ (encode k).length := by
  have hpos := List.length_pos_of_ne_nil hk
  rw [encode_length]
  omega

theorem earVeraisonGetAkpub_roundTrip {ear : Ref (EarT Jwt)} (hear : Verified ear) {k : List UInt8}
    (hk : k ≠ []) (hclaim : akpubClaim (ear.val.submods.map Ref.val) appRec = some (.string text))
    (htext : text.bytes = encode k ∨ text.bytes = encode k ++ padding (encode k).length)
    (hlen : (encode k).length ≤ 2 ^ 31 - 4) (libc : Libc) (pakpub : Option (Ref Block)) (pakpubSz : Nat)
    (errMsg : Option Buffer) (L : Ledger Kind) :
    ∃ r L' out, earVeraisonGetAkpub libc true ear.val appRec pakpub pakpubSz errMsg L = some (r, L') ∧
      r.ret = 0 ∧ r.pakpub = some out ∧ r.pakpubSz = k.length ∧ k.length ≤ out.val.size ∧
      out.val.mem.window k.length = k := by
  have hscan : alphabetPrefix text = encode k := by
    rcases htext with htext | htext
    · exact alphabetPrefix_encode (htext.trans (List.append_nil _).symm) (by simp)
    · exact alphabetPrefix_encode htext (fun c hc => List.eq_of_mem_replicate hc)
  have hshort : (alphabetPrefix text).length ≤ 2 ^ 31 - 4 := by rwa [hscan]
  have htwo := two_le_encode_length hk
  rw [earVeraisonGetAkpub_eq hear.complete, akpubOf_eq_ok.mpr hclaim]
  obtain ⟨d, L', own, hrun, -, hd⟩ := (uB64urlDecode_small hshort pakpub pakpubSz).run L
  rw [hscan, decode_encode] at hd
  rcases hd with ⟨hle, -⟩ | ⟨-, id, -, rfl⟩
  · omega
  · have hwindow := decodedBlock_window (encode k)
    have hsize := decode_length_le_size (encode k)
    rw [decode_encode] at hwindow hsize
    exact ⟨_, L', ⟨id, decodedBlock (encode k)⟩, by simp only [Exec.bind_apply, hrun]; rfl, rfl, rfl,
      rfl, hsize, hwindow⟩

def parsecTpmAkpub : List UInt8 :=
  [
    0x30, 0x59, 0x30, 0x13, 0x06, 0x07, 0x2a, 0x86, 0x48, 0xce, 0x3d, 0x02, 0x01, 0x06, 0x08, 0x2a,
    0x86, 0x48, 0xce, 0x3d, 0x03, 0x01, 0x07, 0x03, 0x42, 0x00, 0x04, 0x72, 0x34, 0xa9, 0xf3, 0xf3,
    0x16, 0x33, 0x78, 0x32, 0xf1, 0x3b, 0xa0, 0x58, 0xed, 0x53, 0xa5, 0x04, 0xa3, 0xfe, 0xf2, 0x24,
    0xb0, 0xba, 0x42, 0xfa, 0x0f, 0x25, 0xe5, 0x2d, 0xe5, 0xa4, 0x66, 0xfb, 0x3d, 0x65, 0x86, 0xa0,
    0x20, 0x23, 0x10, 0xff, 0x3f, 0x03, 0x9f, 0x55, 0x67, 0x02, 0xd7, 0x83, 0x0a, 0x19, 0xcc, 0xdd,
    0x16, 0xc6, 0xe0, 0x4f, 0x8e, 0x96, 0x96, 0x89, 0x6b, 0x1f, 0x09]

theorem validEar_akpub :
    akpubClaim (some validEar.submods) (lit "PARSEC_TPM") = some (.string akpubText) := by
  have hrecord : parsecSubmods.HasMember (lit "PARSEC_TPM") attestedRecord :=
    jsonObject_hasMember _ List.mem_cons_self
  have hattestation : attestedRecord.HasMember (lit "ear.veraison.key-attestation")
      (jsonObject [(lit "akpub", .string akpubText)] (List.nodup_singleton _)) :=
    jsonObject_hasMember _ (by simp)
  have hakpub : (jsonObject [(lit "akpub", .string akpubText)] (List.nodup_singleton _)).HasMember
      (lit "akpub") (.string akpubText) := jsonObject_hasMember _ List.mem_cons_self
  change jsonObjectGet (jsonObjectGet (jsonObjectGet (some parsecSubmods) _) _) _ = _
  rw [jsonObjectGet_eq_some_iff.mpr hrecord, jsonObjectGet_eq_some_iff.mpr hattestation]
  exact jsonObjectGet_eq_some_iff.mpr hakpub

theorem earVeraisonGetAkpub_roundTrip_sample :
    ∃ (ear : Ref (EarT Unit)) (r : AkpubResult) (L' : Ledger Kind) (out : Ref Block), Verified ear ∧
      earVeraisonGetAkpub validEar.env.libc true ear.val (lit "PARSEC_TPM") none 0 none Ledger.empty =
        some (r, L') ∧
      r.ret = 0 ∧ r.pakpub = some out ∧ r.pakpubSz = 91 ∧ out.val.mem.window 91 = parsecTpmAkpub := by
  obtain ⟨ear, hear, hsub⟩ := validEar.verified
  have hclaim := validEar_akpub
  rw [← hsub] at hclaim
  have htext : akpubText.bytes = encode parsecTpmAkpub := by decide +kernel
  have hlen : (encode parsecTpmAkpub).length ≤ 2 ^ 31 - 4 := by
    rw [encode_length]
    decide
  obtain ⟨r, L', out, hrun, hret, hout, hsz, -, hkey⟩ :=
    earVeraisonGetAkpub_roundTrip hear (List.cons_ne_nil _ _) hclaim (Or.inl htext) hlen validEar.env.libc
      none 0 none Ledger.empty
  exact ⟨ear, r, L', out, hear, hrun, hret, hout, hsz, hkey⟩

/-- The bits of the buffer are those of the whole alphabet prefix of `s`, cut to
bytes. A character that adds none of them is the last one and would start a
group of four. -/
structure DecodesWhole (s : CStr) (out : Option (Ref Block)) (sz : Nat) : Prop where
  two : 2 ≤ (alphabetPrefix s).length
  size : sz = 6 * (alphabetPrefix s).length / 8
  content : ∃ b, out = some b ∧ sz ≤ b.val.size ∧
    byteBits (b.val.mem.window sz) = (bits (alphabetPrefix s)).take (8 * sz)
  dangling : ∀ i < (alphabetPrefix s).length,
    8 * sz ≤ 6 * i ↔ i + 1 = (alphabetPrefix s).length ∧ (alphabetPrefix s).length % 4 = 1

theorem decodesWhole_decodedBlock {s : CStr} (htwo : 2 ≤ (alphabetPrefix s).length) (id : Nat) :
    DecodesWhole s (some ⟨id, decodedBlock (alphabetPrefix s)⟩) (decode (alphabetPrefix s)).length where
  two := htwo
  size := decode_length _
  content := ⟨_, rfl, decode_length_le_size _, by rw [decodedBlock_window, byteBits_decode]⟩
  dangling i hi := by
    rw [decode_length]
    omega

theorem uB64urlDecode_whole {s : CStr} (hn : (alphabetPrefix s).length < 2 ^ 32) {calloc : Bool}
    {pout : Option (Ref Block)} {poutSz : Nat} {L L' : Ledger Kind} {r : DecodeResult}
    (hrun : uB64urlDecode calloc (some s) pout poutSz L = some (r, L')) (hret : r.ret = 0) :
    DecodesWhole s r.pout r.poutSz := by
  by_cases hsmall : (alphabetPrefix s).length ≤ 2 ^ 31 - 4
  · obtain ⟨htwo, id, rfl⟩ := uB64urlDecode_accepted hsmall hrun hret
    exact decodesWhole_decodedBlock htwo id
  · obtain ⟨own, -, rfl, -⟩ :=
      (uB64urlDecode_rejects (by omega) hn calloc pout poutSz).result hrun
    exact absurd hret (by simp)

/-- What is read off the text by a call with these arguments. -/
def reading (calloc : Bool) (p : List UInt8) (pout : Option Block) (poutSz : Nat) :
    Int × Option Block × Nat :=
  if calloc = true ∧ 2 ≤ p.length ∧ p.length ≤ 2 ^ 31 - 4 then
    (0, some (decodedBlock p), (decode p).length)
  else
    (-1, pout, poutSz)

theorem uB64urlDecode_observed {s : CStr} (hn : (alphabetPrefix s).length < 2 ^ 32) (calloc : Bool)
    (pout : Option (Ref Block)) (poutSz : Nat) (L : Ledger Kind) :
    ∃ r L', uB64urlDecode calloc (some s) pout poutSz L = some (r, L') ∧
      observed r = reading calloc (alphabetPrefix s) (pout.map Ref.val) poutSz := by
  have hfits : ¬ Overflows calloc s := not_overflows_of_lt hn calloc
  obtain ⟨r, L', own, hrun, -, hr⟩ := (uB64urlDecode_runs hfits pout poutSz).run L
  refine ⟨r, L', hrun, ?_⟩
  rcases hr with ⟨rfl, -⟩ | ⟨rfl, out, hret, -, -⟩
  · rw [reading, if_neg]
    · rfl
    · rintro ⟨rfl, htwo, hsmall⟩
      obtain ⟨r', M, haccepted, hret⟩ := uB64urlDecode_accepts htwo hsmall pout poutSz L
      rw [hrun, Option.some.injEq, Prod.mk.injEq] at haccepted
      rw [← haccepted.1] at hret
      exact absurd hret (by simp)
  · have hsmall : (alphabetPrefix s).length ≤ 2 ^ 31 - 4 := by
      by_contra hlong
      obtain ⟨own, -, rfl, -⟩ := (uB64urlDecode_rejects (by omega) hn true pout poutSz).result hrun
      exact absurd hret (by simp)
    obtain ⟨htwo, id, rfl⟩ := uB64urlDecode_accepted hsmall hrun hret
    rw [reading, if_pos ⟨rfl, htwo, hsmall⟩]
    rfl

theorem uB64urlDecode_ignores {s t : CStr} (hst : alphabetPrefix s = alphabetPrefix t)
    (hn : (alphabetPrefix s).length < 2 ^ 32) (calloc : Bool) (pout : Option (Ref Block)) (poutSz : Nat)
    (L M : Ledger Kind) :
    ∃ r L' r' M', uB64urlDecode calloc (some s) pout poutSz L = some (r, L') ∧
      uB64urlDecode calloc (some t) pout poutSz M = some (r', M') ∧ observed r = observed r' := by
  obtain ⟨r, L', hrun, hr⟩ := uB64urlDecode_observed hn calloc pout poutSz L
  rw [hst] at hn hr
  obtain ⟨r', M', hrun', hr'⟩ := uB64urlDecode_observed hn calloc pout poutSz M
  exact ⟨r, L', r', M', hrun, hrun', hr.trans hr'.symm⟩

def observedKey (r : AkpubResult) : Int × Option Block × Nat × Option Buffer :=
  (r.ret, r.pakpub.map Ref.val, r.pakpubSz, r.errMsg)

theorem earVeraisonGetAkpub_ignores {ear ear' : EarT Jwt} (h : Complete ear) (h' : Complete ear')
    {appRec' text' : CStr} (hakpub : akpubOf (ear.submods.map Ref.val) appRec = .ok text)
    (hakpub' : akpubOf (ear'.submods.map Ref.val) appRec' = .ok text')
    (htext : alphabetPrefix text = alphabetPrefix text') (hn : (alphabetPrefix text).length < 2 ^ 32)
    (libc : Libc) (calloc : Bool) (pakpub : Option (Ref Block)) (pakpubSz : Nat) (errMsg : Option Buffer)
    (L M : Ledger Kind) :
    ∃ r L' r' M', earVeraisonGetAkpub libc calloc ear appRec pakpub pakpubSz errMsg L = some (r, L') ∧
      earVeraisonGetAkpub libc calloc ear' appRec' pakpub pakpubSz errMsg M = some (r', M') ∧
      observedKey r = observedKey r' := by
  obtain ⟨d, L', d', M', hrun, hrun', hd⟩ := uB64urlDecode_ignores htext hn calloc pakpub pakpubSz L M
  obtain ⟨hret, hout, hsz⟩ : d.ret = d'.ret ∧ d.pout.map Ref.val = d'.pout.map Ref.val ∧
      d.poutSz = d'.poutSz := by
    simpa only [observed, Prod.mk.injEq] using hd
  rw [earVeraisonGetAkpub_eq h, earVeraisonGetAkpub_eq h', hakpub, hakpub']
  refine ⟨_, L', _, M', by simp only [Exec.bind_apply, hrun]; rfl,
    by simp only [Exec.bind_apply, hrun']; rfl, ?_⟩
  simp only [observedKey, hret, hout, hsz]

/-- Up to 2^32 characters, a decoding that succeeds takes in the whole alphabet
prefix of its text and ignores what follows it; so does that of an attested key. -/
theorem decodings_whole :
    (∀ s calloc pout poutSz L r L', (alphabetPrefix s).length < 2 ^ 32 →
      uB64urlDecode calloc (some s) pout poutSz L = some (r, L') → r.ret = 0 →
        DecodesWhole s r.pout r.poutSz) ∧
    (∀ s t calloc pout poutSz L M, alphabetPrefix s = alphabetPrefix t →
      (alphabetPrefix s).length < 2 ^ 32 → ∃ r L' r' M',
        uB64urlDecode calloc (some s) pout poutSz L = some (r, L') ∧
        uB64urlDecode calloc (some t) pout poutSz M = some (r', M') ∧ observed r = observed r') ∧
    (∀ s pout poutSz L, 2 ≤ (alphabetPrefix s).length → (alphabetPrefix s).length ≤ 2 ^ 31 - 4 →
      ∃ r L', uB64urlDecode true (some s) pout poutSz L = some (r, L') ∧ r.ret = 0) ∧
    (∀ (Jwt : Type) (ear : Ref (EarT Jwt)) appRec libc calloc pakpub pakpubSz errMsg L r L', Verified ear →
      earVeraisonGetAkpub libc calloc ear.val appRec pakpub pakpubSz errMsg L = some (r, L') →
      r.ret = 0 → ∃ text, akpubClaim (ear.val.submods.map Ref.val) appRec = some (.string text) ∧
        ((alphabetPrefix text).length < 2 ^ 32 → DecodesWhole text r.pakpub r.pakpubSz)) ∧
    ∀ (Jwt : Type) (ear ear' : Ref (EarT Jwt)) appRec appRec' text text' libc calloc pakpub pakpubSz
      errMsg L M, Verified ear → Verified ear' →
      akpubClaim (ear.val.submods.map Ref.val) appRec = some (.string text) →
      akpubClaim (ear'.val.submods.map Ref.val) appRec' = some (.string text') →
      alphabetPrefix text = alphabetPrefix text' → (alphabetPrefix text).length < 2 ^ 32 →
      ∃ r L' r' M', earVeraisonGetAkpub libc calloc ear.val appRec pakpub pakpubSz errMsg L = some (r, L') ∧
        earVeraisonGetAkpub libc calloc ear'.val appRec' pakpub pakpubSz errMsg M = some (r', M') ∧
        observedKey r = observedKey r' := by
  refine ⟨?_, ?_, ?_, ?_, ?_⟩
  · intro s calloc pout poutSz L r L' hn hrun hret
    exact uB64urlDecode_whole hn hrun hret
  · intro s t calloc pout poutSz L M hst hn
    exact uB64urlDecode_ignores hst hn calloc pout poutSz L M
  · intro s pout poutSz L htwo hn
    exact uB64urlDecode_accepts htwo hn pout poutSz L
  · intro Jwt ear appRec libc calloc pakpub pakpubSz errMsg L r L' hear hrun hret
    obtain ⟨text, d, hakpub, hdecode, hd, hout, hsz⟩ :=
      earVeraisonGetAkpub_success hear.complete hrun hret
    refine ⟨text, akpubOf_eq_ok.mp hakpub, fun hn => ?_⟩
    rw [hout, hsz]
    exact uB64urlDecode_whole hn hdecode hd
  · intro Jwt ear ear' appRec appRec' text text' libc calloc pakpub pakpubSz errMsg L M hear hear' hclaim
      hclaim' htext hn
    exact earVeraisonGetAkpub_ignores hear.complete hear'.complete (akpubOf_eq_ok.mpr hclaim)
      (akpubOf_eq_ok.mpr hclaim') htext hn libc calloc pakpub pakpubSz errMsg L M

/-- `Yw+` and `Yw` give the same byte. -/
theorem decodings_whole_sample :
    ∃ r L' r' M', uB64urlDecode true (some (lit "Yw+")) none 0 Ledger.empty = some (r, L') ∧
      uB64urlDecode true (some (lit "Yw")) none 0 Ledger.empty = some (r', M') ∧
      r.ret = 0 ∧ DecodesWhole (lit "Yw+") r.pout r.poutSz ∧ observed r = observed r' := by
  have hn : (alphabetPrefix (lit "Yw+")).length = 2 := by decide +kernel
  have hsame : alphabetPrefix (lit "Yw+") = alphabetPrefix (lit "Yw") := by decide +kernel
  obtain ⟨hwhole, hignores, haccepts, -⟩ := decodings_whole
  obtain ⟨r, L', r', M', hrun, hrun', hobserved⟩ :=
    hignores _ _ true none 0 Ledger.empty Ledger.empty hsame (by omega)
  obtain ⟨q, M, haccepted, hret⟩ := haccepts (lit "Yw+") none 0 Ledger.empty (by omega) (by omega)
  rw [hrun, Option.some.injEq, Prod.mk.injEq] at haccepted
  rw [← haccepted.1] at hret
  exact ⟨r, L', r', M', hrun, hrun', hret, hwhole _ _ _ _ _ _ _ (by omega) hrun hret, hobserved⟩

/-- The alphabet prefix is ended by the end of the text or by padding, and
leaves no character over. -/
def NotCutShort (s : CStr) : Prop :=
  (s.bytes.drop (alphabetPrefix s).length = [] ∨
    (s.bytes.drop (alphabetPrefix s).length).head? = some 61) ∧ (alphabetPrefix s).length % 4 ≠ 1

/-- Texts that are cut short are decoded all the same. -/
theorem uB64urlDecode_lenient :
    (∃ r L', uB64urlDecode true (some (lit "Yw+")) none 0 Ledger.empty = some (r, L') ∧ r.ret = 0 ∧
      ¬ NotCutShort (lit "Yw+")) ∧
    ∃ r L', uB64urlDecode true (some (lit "AAAAA")) none 0 Ledger.empty = some (r, L') ∧ r.ret = 0 ∧
      ¬ NotCutShort (lit "AAAAA") := by
  have hplus : (alphabetPrefix (lit "Yw+")).length = 2 := by decide +kernel
  have hfive : (alphabetPrefix (lit "AAAAA")).length = 5 := by decide +kernel
  constructor
  · obtain ⟨r, L', hrun, hret⟩ := uB64urlDecode_accepts (s := lit "Yw+") (by omega) (by omega) none 0
      Ledger.empty
    refine ⟨r, L', hrun, hret, ?_⟩
    rintro ⟨hend, -⟩
    rw [hplus] at hend
    revert hend
    decide
  · obtain ⟨r, L', hrun, hret⟩ := uB64urlDecode_accepts (s := lit "AAAAA") (by omega) (by omega) none 0
      Ledger.empty
    exact ⟨r, L', hrun, hret, fun h => h.2 (by rw [hfive])⟩

end CEar.KeyAttestation
