import CEar.Ear
import CEar.Strlcpy

namespace CEar.Report

open CString Ear Ownership Strlcpy Utils

/-- The message of `f` as far as it fits in the buffer. -/
def shown (f : Failure) : CStr := f.message.truncate (earErrSz - 1)

/-- The string that `snprintf` leaves for the message of `f`. -/
def composed (libc : Libc) (f : Failure) : CStr :=
  (printed f.message (libc.leaves f)).truncate (earErrSz - 1)

def reported (libc : Libc) (f : Failure) (errMsg : Option Buffer) : Option Buffer :=
  errMsg.map (fun b => b.write (composed libc f).cells)

def erased (errMsg : Option Buffer) : Option Buffer := errMsg.map (fun b => b.write [0])

/-- The buffer holds the message of `f`: a string that is not empty, and that
ends within the buffer. -/
structure Reports (b : Buffer) (f : Failure) : Prop where
  holds : b.Holds (shown f)
  nonempty : 0 < (shown f).length
  fits : (shown f).length ≤ earErrSz - 1

theorem message_pos (f : Failure) : 0 < f.message.length := by
  cases f with
  | unknownAlg text | unknownProfile text | noRecord text | unknownStatus text =>
      exact CStr.append_pos _ (CStr.append_pos _ (by decide +kernel))
  | validNew ret | jwtDecode ret | jwtValidate ret =>
      exact CStr.append_pos _ (CStr.append_pos _ (by decide +kernel))
  | earNew | missingProfile | missingSubmods | badSubmods | noStatus | noKeyAttestation | noAkpub
  | badAkpub => decide +kernel

theorem shown_pos (f : Failure) : 0 < (shown f).length := by
  have hpos := message_pos f
  have hlen : (shown f).length = min 127 f.message.length := f.message.truncate_length 127
  omega

theorem shown_le (f : Failure) : (shown f).length ≤ earErrSz - 1 :=
  f.message.truncate_length_le _

theorem composed_le (libc : Libc) (f : Failure) : (composed libc f).length ≤ earErrSz - 1 :=
  (printed f.message (libc.leaves f)).truncate_length_le _

theorem composed_countable (libc : Libc) {f : Failure} (h : f.message.Countable) :
    composed libc f = shown f := by
  rw [composed, printed_countable h, shown]

/-- A message that `int` cannot count is composed all the same when it is what
the failing `snprintf` leaves. -/
theorem composed_eq_shown_iff {libc : Libc} {f : Failure} : composed libc f = shown f ↔
    f.message.Countable ∨ (libc.leaves f).truncate (earErrSz - 1) = shown f := by
  by_cases h : f.message.Countable
  · exact iff_of_true (composed_countable libc h) (Or.inl h)
  · rw [composed, printed, if_neg h]
    exact (or_iff_right h).symm

theorem reportErr_eq {e : Buffer} {s : CStr} (h : e.Holds s) (hs : s.length < earErrSz)
    (errMsg : Option Buffer) :
    reportErr errMsg e = pure (errMsg.map (fun b => b.write s.cells)) := by
  cases errMsg with
  | none => rfl
  | some b =>
      have hcopy := uStrlcpy_eq (h.window_starts hs) b earErrSz
      have hcut : s.truncate (earErrSz - 1) = s := CStr.truncate_of_length_le (Nat.le_pred_of_lt hs)
      rw [if_neg (by decide), hcut] at hcopy
      simp only [reportErr, hcopy]
      rfl

theorem reportErr_composeErr (libc : Libc) (f : Failure) (errMsg : Option Buffer) :
    reportErr errMsg (composeErr libc f) = pure (reported libc f errMsg) := by
  have hholds : (composeErr libc f).Holds (composed libc f) := Buffer.holds_write _ _
  exact reportErr_eq hholds (Nat.lt_of_le_of_lt (composed_le libc f) (by decide)) errMsg

theorem reportErr_emptyErr (errMsg : Option Buffer) :
    reportErr errMsg emptyErr = pure (erased errMsg) := by
  have hempty : emptyErr.Holds (lit "") := rfl
  exact reportErr_eq hempty (by decide) errMsg

theorem reports_write_iff (libc : Libc) (b : Buffer) (f : Failure) :
    Reports (b.write (composed libc f).cells) f ↔ composed libc f = shown f := by
  have hholds := Buffer.holds_write b (composed libc f)
  constructor
  · intro h
    exact hholds.unique h.holds
  · intro h
    rw [h] at hholds ⊢
    exact ⟨hholds, shown_pos f, shown_le f⟩

theorem reports_write {libc : Libc} {f : Failure} (h : f.message.Countable) (b : Buffer) :
    Reports (b.write (composed libc f).cells) f :=
  (reports_write_iff libc b f).mpr (composed_countable libc h)

theorem write_composed_ge (libc : Libc) (b : Buffer) (f : Failure) {i : Nat} (hi : earErrSz ≤ i) :
    b.write (composed libc f).cells i = b i := by
  apply Buffer.write_ge
  rw [CStr.cells_length]
  exact (Nat.succ_le_succ (composed_le libc f)).trans hi

theorem not_reports_erased (b : Buffer) (f : Failure) : ¬ Reports (b.write [0]) f := by
  intro h
  obtain ⟨c, hc⟩ : ∃ c, (shown f).bytes[0]? = some c := ⟨_, List.getElem?_eq_getElem h.nonempty⟩
  have hread := h.holds.apply (Nat.zero_le _)
  rw [CStr.cells_getElem?_lt _ h.nonempty, hc] at hread
  exact CStr.byte_ne_zero _ hc (Option.some.inj hread)

end CEar.Report
