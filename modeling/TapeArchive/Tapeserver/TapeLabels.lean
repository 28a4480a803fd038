/-
  **THE VOLUME IDENTIFIER ON TAPE** (`File.cpp`, `Structures.cpp`).

  A volume identifier is written into fields of six characters, padded with
  blanks, and read back with the blanks. The sessions compare that with the
  identifier they are opened with, which has none.

  Left out: the trailers that a session on a tape with files checks, and the
  headers but for the volume.
-/
import TapeArchive.Lib.Text

namespace TapeArchive.Tapeserver.TapeFile

open Lib List

/-- `setString`. -/
def setString (n : Nat) (s : Text) : Text := padRight n ' ' s

/-- `cmpString` finds a field and a text equal. -/
def cmpString (n : Nat) (t s : Text) : Bool := t == setString n s

/-- `SCSI::logicBlockProtectionMethod`. -/
inductive LBPMethod where
  | doNotUse | reedSolomon | crc32c

/-- `VOL1`; the constructor fills it with blanks. -/
structure VOL1 where
  m_label : Text := setString 4 []
  m_VSN : Text := setString 6 []
  m_accessibility : Text := setString 1 []
  m_reserved1 : Text := setString 13 []
  m_implID : Text := setString 13 []
  m_ownerID : Text := setString 14 []
  m_reserved2 : Text := setString 26 []
  m_LBPMethod : Text := setString 2 []
  m_lblStandard : Text := setString 1 []

/-- `VOL1::fill`. -/
def VOL1.fill (vsn : Text) (method : LBPMethod) : VOL1 where
  m_label := setString 4 "VOL1".toList
  m_VSN := setString 6 vsn
  m_lblStandard := setString 1 "3".toList
  m_ownerID := setString 14 "CASTOR".toList
  m_LBPMethod := setString 2 (match method with
    | .doNotUse => "00".toList
    | .reedSolomon => "01".toList
    | .crc32c => "02".toList)

/-- `VOL1::getLBPMethod`, for a field of two digits or blanks. -/
def VOL1.getLBPMethod (v : VOL1) : Option LBPMethod :=
  if v.m_LBPMethod = "  ".toList then some .doNotUse
  else if v.m_LBPMethod = "00".toList then some .doNotUse
  else if v.m_LBPMethod = "01".toList then some .reedSolomon
  else if v.m_LBPMethod = "02".toList then some .crc32c
  else none

/-- `VOL1::verify`. -/
def VOL1.verify (v : VOL1) : Bool :=
  cmpString 4 v.m_label "VOL1".toList && !cmpString 6 v.m_VSN []
    && cmpString 1 v.m_lblStandard "3".toList && cmpString 1 v.m_accessibility []
    && cmpString 13 v.m_reserved1 [] && cmpString 13 v.m_implID []
    && cmpString 26 v.m_reserved2 []

/-- `HeaderChecker::checkVOL1`, and the same check of `checkHDR1`. -/
def checkVSN (m_VSN volId : Text) : Bool := m_VSN == volId

/-- `LabelSession`. -/
def labelSession (vid : Text) (lbp : Bool) : VOL1 :=
  VOL1.fill vid (if lbp then .crc32c else .doNotUse)

/-- The field `m_VSN` of the `HDR1` that `WriteFile` writes. -/
def writtenVSN (vid : Text) : Text := setString 6 vid

/-- The constructors of the sessions on a tape that starts with `vol1`. -/
def openSession (vol1 : VOL1) (vid : Text) (takesCRC32C : Bool) : Bool :=
  vid != [] && (match vol1.getLBPMethod with
    | some .doNotUse => true
    | some .crc32c => takesCRC32C
    | _ => false) && vol1.verify && checkVSN vol1.m_VSN vid

/-- `ReadSession`. -/
def readSession (vol1 : VOL1) (vid : Text) : Bool := openSession vol1 vid true

/-- `WriteSession`. -/
def writeSession (vol1 : VOL1) (vid : Text) (useLbp : Bool) : Bool := openSession vol1 vid useLbp

/-- A volume identifier of one to six characters that are no blanks. -/
structure VolumeId where
  text : Text
  nonempty : text ≠ []
  fits : text.length ≤ 6
  nonblank : ' ' ∉ text

/-- Only a full field is the identifier, and it is no other one. -/
theorem setString_eq_iff (vid other : VolumeId) :
    setString 6 vid.text = other.text ↔ vid.text.length = 6 ∧ vid.text = other.text := by
  unfold setString
  rw [padRight_of_length_le vid.fits]
  constructor
  · intro heq
    have hf : 6 - vid.text.length = 0 := by
      by_contra hpos
      refine other.nonblank (heq ▸ mem_append_right _ (mem_replicate.mpr ⟨hpos, rfl⟩))
    have hl : vid.text.length = 6 := by
      have := vid.fits
      omega
    rw [hf, replicate_zero, append_nil] at heq
    exact ⟨hl, heq⟩
  · rintro ⟨hl, heq⟩
    rw [hl, ← heq]
    exact append_nil _

/-- A label is well formed. -/
theorem verify_labelSession (vid : VolumeId) (lbp : Bool) :
    (labelSession vid.text lbp).verify = true := by
  have hb : setString 6 vid.text ≠ setString 6 [] := by
    obtain ⟨c, cs, hv⟩ := exists_cons_of_ne_nil vid.nonempty
    have hc := vid.nonblank
    rw [hv] at hc ⊢
    intro heq
    have hh := congrArg head? heq
    simp [setString, padRight] at hh
    exact hc (hh ▸ mem_cons_self)
  simp only [VOL1.verify, labelSession, VOL1.fill, cmpString, Bool.and_eq_true,
    Bool.not_eq_true', beq_eq_false_iff_ne]
  exact ⟨⟨⟨⟨⟨⟨rfl, hb⟩, rfl⟩, rfl⟩, rfl⟩, rfl⟩, rfl⟩

theorem openSession_label_iff (vid other : VolumeId) (lbp takesCRC32C : Bool) :
    openSession (labelSession vid.text lbp) other.text takesCRC32C = true
      ↔ (lbp = true → takesCRC32C = true) ∧ vid.text.length = 6 ∧ vid.text = other.text := by
  have hm : (labelSession vid.text lbp).getLBPMethod
      = some (if lbp then .crc32c else .doNotUse) := by
    cases lbp <;> rfl
  rw [← setString_eq_iff, openSession, hm, verify_labelSession]
  cases lbp <;> simp [checkVSN, labelSession, VOL1.fill, other.nonempty]

/-- **LABELS ARE ACCEPTED** by the sessions of the same identifier exactly when it fills its field,
and never by others. -/
theorem label_accepted_iff (vid : VolumeId) (lbp useLbp : Bool) :
    (readSession (labelSession vid.text lbp) vid.text = true ↔ vid.text.length = 6)
      ∧ (writeSession (labelSession vid.text lbp) vid.text useLbp = true
        ↔ (lbp = true → useLbp = true) ∧ vid.text.length = 6)
      ∧ (checkVSN (writtenVSN vid.text) vid.text = true ↔ vid.text.length = 6)
      ∧ ∀ other : VolumeId, other.text ≠ vid.text →
        readSession (labelSession vid.text lbp) other.text = false
          ∧ writeSession (labelSession vid.text lbp) other.text useLbp = false := by
  refine ⟨?_, ?_, ?_, fun other hne => ⟨?_, ?_⟩⟩
  · simp [readSession, openSession_label_iff vid vid]
  · simp [writeSession, openSession_label_iff vid vid]
  · simp [checkVSN, writtenVSN, setString_eq_iff vid vid]
  · simp [readSession, ← Bool.not_eq_true, openSession_label_iff vid other, hne.symm]
  · simp [writeSession, ← Bool.not_eq_true, openSession_label_iff vid other, hne.symm]

/-- A tape with a short identifier is refused under its own name. -/
theorem short_label_refused :
    readSession (labelSession "V1234".toList false) "V1234".toList = false := by
  decide

end TapeArchive.Tapeserver.TapeFile
