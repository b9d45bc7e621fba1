import CEar.Strlcpy
import CEar.VerifyTool

namespace CEar.VerifyToolOptions

open CString Strlcpy Utils VerifyTool

/-- The strings that the arrays of `args_t` hold. -/
structure Settings where
  keyFn : CStr
  alg : CStr
  earFn : CStr
  appRec : CStr

def noSettings : Settings := ⟨lit "", lit "", lit "", lit ""⟩

/-- The options up to the first that `getopt` does not recognise. -/
def given : List Opt → List (Letter × CStr)
  | .letter c optarg :: getopt => (c, optarg) :: given getopt
  | .unrecognised _ :: _ | [] => []

/-- What `getopt` says of the first option that it does not recognise. -/
def complaint : List Opt → Option CStr
  | .letter _ _ :: getopt => complaint getopt
  | .unrecognised diagnostic :: _ => some diagnostic
  | [] => none

/-- The last argument given to an option, cut to what fits in an array of this size. -/
def chosen (given : List (Letter × CStr)) (c : Letter) (size : Nat) (default : CStr) : CStr :=
  ((given.filter (fun o => o.1 = c)).map (fun o => o.2.truncate (size - 1))).getLastD default

def options (s : Settings) (given : List (Letter × CStr)) : Settings where
  keyFn := chosen given .k keyFnSz s.keyFn
  alg := chosen given .a algSz s.alg
  earFn := s.earFn
  appRec := chosen given .s appRecSz s.appRec

/-- What the tool is asked to do. With an option that is not recognised or without
an operand it is what `getopt` says of that, if anything. -/
def settings (s : Settings) (getopt : List Opt) (operand : Option CStr) :
    Except (Option CStr) Settings :=
  match complaint getopt, operand with
  | none, some earFn => .ok { options s (given getopt) with earFn := earFn.truncate (earFnSz - 1) }
  | diagnostic, _ => .error diagnostic

structure HoldsWithin (b : Buffer) (size : Nat) (s : CStr) : Prop where
  holds : b.Holds s
  fits : s.length < size

structure Represents (args : Args) (s : Settings) : Prop where
  keyFn : HoldsWithin args.keyFn keyFnSz s.keyFn
  alg : HoldsWithin args.alg algSz s.alg
  earFn : HoldsWithin args.earFn earFnSz s.earFn
  appRec : HoldsWithin args.appRec appRecSz s.appRec

theorem HoldsWithin.readStr {b : Buffer} {size : Nat} {s : CStr} (h : HoldsWithin b size s) :
    readStr (b.window size) = some s :=
  h.holds.readStr_window h.fits

theorem represents_noArgs : Represents noArgs noSettings := by
  have hempty : Buffer.Holds (fun _ => 0) (lit "") := rfl
  exact ⟨⟨hempty, by decide⟩, ⟨hempty, by decide⟩, ⟨hempty, by decide⟩, ⟨hempty, by decide⟩⟩

/-- The two memories are the same from the end of an array of this size on. -/
def SameBeyond (size : Nat) (b b' : Buffer) : Prop := ∀ i, size ≤ i → b' i = b i

structure Bounded (args args' : Args) : Prop where
  keyFn : SameBeyond keyFnSz args.keyFn args'.keyFn
  alg : SameBeyond algSz args.alg args'.alg
  earFn : SameBeyond earFnSz args.earFn args'.earFn
  appRec : SameBeyond appRecSz args.appRec args'.appRec

theorem SameBeyond.refl (size : Nat) (b : Buffer) : SameBeyond size b b := fun _ _ => rfl

theorem Bounded.trans {args args' args'' : Args} (h : Bounded args args') (h' : Bounded args' args'') :
    Bounded args args'' where
  keyFn i hi := (h'.keyFn i hi).trans (h.keyFn i hi)
  alg i hi := (h'.alg i hi).trans (h.alg i hi)
  earFn i hi := (h'.earFn i hi).trans (h.earFn i hi)
  appRec i hi := (h'.appRec i hi).trans (h.appRec i hi)

theorem uStrlcpy_holdsWithin (b : Buffer) (s : CStr) {size : Nat} (hsize : 0 < size) :
    ∃ b', uStrlcpy b s.cells size = some (s.length, b') ∧
      HoldsWithin b' size (s.truncate (size - 1)) ∧ SameBeyond size b b' := by
  have hcopy := uStrlcpy_eq (List.prefix_refl s.cells) b size
  rw [if_neg (Nat.pos_iff_ne_zero.mp hsize)] at hcopy
  have hlen := s.truncate_length_le (size - 1)
  refine ⟨_, hcopy, ⟨Buffer.holds_write _ _, by omega⟩, fun i hi => ?_⟩
  apply Buffer.write_cells_gt
  omega

theorem chosen_self (c : Letter) (optarg : CStr) (given : List (Letter × CStr)) (size : Nat)
    (default : CStr) : chosen ((c, optarg) :: given) c size default =
      chosen given c size (optarg.truncate (size - 1)) := by
  rw [chosen, List.filter_cons_of_pos (by simp), List.map_cons, List.getLastD_cons]
  rfl

theorem chosen_other {c c' : Letter} (h : c ≠ c') (optarg : CStr) (given : List (Letter × CStr))
    (size : Nat) (default : CStr) :
    chosen ((c, optarg) :: given) c' size default = chosen given c' size default := by
  rw [chosen, List.filter_cons_of_neg (by simpa using h)]
  rfl

theorem options_alg (s : Settings) (optarg : CStr) (given : List (Letter × CStr)) :
    options s ((.a, optarg) :: given) = options { s with alg := optarg.truncate (algSz - 1) } given := by
  rw [options, chosen_self, chosen_other (by decide), chosen_other (by decide)]
  rfl

theorem options_keyFn (s : Settings) (optarg : CStr) (given : List (Letter × CStr)) :
    options s ((.k, optarg) :: given) = options { s with keyFn := optarg.truncate (keyFnSz - 1) } given := by
  rw [options, chosen_self, chosen_other (by decide), chosen_other (by decide)]
  rfl

theorem options_appRec (s : Settings) (optarg : CStr) (given : List (Letter × CStr)) :
    options s ((.s, optarg) :: given) = options { s with appRec := optarg.truncate (appRecSz - 1) } given := by
  rw [options, chosen_self, chosen_other (by decide), chosen_other (by decide)]
  rfl

/-- How `parse_opts` ends, and what it has left in the arrays then. -/
def Leaves (s : Settings) (getopt : List Opt) (operand : Option CStr) (parsed : Parsed) : Prop :=
  match settings s getopt operand with
  | .ok s' => ∃ args, parsed = .returns args ∧ Represents args s'
  | .error diagnostic =>
      ∃ args, parsed = .usage args diagnostic ∧ Represents args (options s (given getopt))

theorem leaves_letter {s s' : Settings} {c : Letter} {optarg : CStr} {getopt : List Opt}
    (h : options s ((c, optarg) :: given getopt) = options s' (given getopt)) {operand : Option CStr}
    {parsed : Parsed} (hleaves : Leaves s' getopt operand parsed) :
    Leaves s (.letter c optarg :: getopt) operand parsed := by
  simpa only [Leaves, settings, complaint, given, h] using hleaves

/-- The options are taken in order, each overwriting what an earlier one has
left in its array. -/
theorem parseOpts_spec (getopt : List Opt) (operand : Option CStr) {args : Args} {s : Settings}
    (h : Represents args s) :
    ∃ parsed, parseOpts getopt operand args = some parsed ∧ Bounded args parsed.args ∧
      Leaves s getopt operand parsed := by
  have hkeyFn := SameBeyond.refl keyFnSz args.keyFn
  have halg := SameBeyond.refl algSz args.alg
  have hearFn := SameBeyond.refl earFnSz args.earFn
  have happRec := SameBeyond.refl appRecSz args.appRec
  induction getopt generalizing args s with
  | nil =>
      cases operand with
      | none => exact ⟨_, rfl, ⟨hkeyFn, halg, hearFn, happRec⟩, args, rfl, h⟩
      | some earFn =>
          have hsize : 0 < earFnSz := by decide
          obtain ⟨b, hcopy, hb, hsame⟩ := uStrlcpy_holdsWithin args.earFn earFn hsize
          refine ⟨.returns { args with earFn := b }, ?_, ⟨hkeyFn, halg, hsame, happRec⟩, _, rfl,
            ⟨h.keyFn, h.alg, hb, h.appRec⟩⟩
          rw [parseOpts, hcopy]
          rfl
  | cons o getopt ih =>
      have hlater : ∀ args₁ s₁, Represents args₁ s₁ → Bounded args args₁ →
          ∃ parsed, parseOpts getopt operand args₁ = some parsed ∧ Bounded args parsed.args ∧
            Leaves s₁ getopt operand parsed := by
        intro args₁ s₁ h₁ hbounded
        obtain ⟨parsed, hparse, hbounded', hleaves⟩ := ih h₁ (.refl _ _) (.refl _ _) (.refl _ _) (.refl _ _)
        exact ⟨parsed, hparse, hbounded.trans hbounded', hleaves⟩
      cases o with
      | unrecognised diagnostic => exact ⟨_, rfl, ⟨hkeyFn, halg, hearFn, happRec⟩, args, rfl, h⟩
      | letter c optarg =>
          cases c with
          | a =>
              have hsize : 0 < algSz := by decide
              obtain ⟨b, hcopy, hb, hsame⟩ := uStrlcpy_holdsWithin args.alg optarg hsize
              obtain ⟨parsed, hparse, hbounded, hleaves⟩ :=
                hlater { args with alg := b } { s with alg := optarg.truncate (algSz - 1) }
                  ⟨h.keyFn, hb, h.earFn, h.appRec⟩ ⟨hkeyFn, hsame, hearFn, happRec⟩
              refine ⟨parsed, ?_, hbounded, leaves_letter (options_alg s optarg _) hleaves⟩
              rw [parseOpts, hcopy]
              exact hparse
          | k =>
              have hsize : 0 < keyFnSz := by decide
              obtain ⟨b, hcopy, hb, hsame⟩ := uStrlcpy_holdsWithin args.keyFn optarg hsize
              obtain ⟨parsed, hparse, hbounded, hleaves⟩ :=
                hlater { args with keyFn := b } { s with keyFn := optarg.truncate (keyFnSz - 1) }
                  ⟨hb, h.alg, h.earFn, h.appRec⟩ ⟨hsame, halg, hearFn, happRec⟩
              refine ⟨parsed, ?_, hbounded, leaves_letter (options_keyFn s optarg _) hleaves⟩
              rw [parseOpts, hcopy]
              exact hparse
          | s =>
              have hsize : 0 < appRecSz := by decide
              obtain ⟨b, hcopy, hb, hsame⟩ := uStrlcpy_holdsWithin args.appRec optarg hsize
              obtain ⟨parsed, hparse, hbounded, hleaves⟩ :=
                hlater { args with appRec := b } { s with appRec := optarg.truncate (appRecSz - 1) }
                  ⟨h.keyFn, h.alg, h.earFn, hb⟩ ⟨hkeyFn, halg, hearFn, hsame⟩
              refine ⟨parsed, ?_, hbounded, leaves_letter (options_appRec s optarg _) hleaves⟩
              rw [parseOpts, hcopy]
              exact hparse

end CEar.VerifyToolOptions
