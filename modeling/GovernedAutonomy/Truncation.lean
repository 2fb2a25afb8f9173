import GovernedAutonomy.Anchor
import GovernedAutonomy.Reload

namespace GovernedAutonomy

open Python

namespace FileReplayLog

variable {P : Primitives}

-- a file-backed log over the lifetimes of its processes
inductive Written (P : Primitives) : FileReplayLog → Prop
  | new : Written P {}
  | append {file file' : FileReplayLog} {frameId : Str} {event : PyDict} {frame : ReplayFrame} :
      Written P file → file.append P frameId event = .ok (file', frame) → Written P file'
  | reload {file file' : FileReplayLog} :
      Written P file → loadJsonl P file.text = .ok file' → Written P file'

-- the first lines of a file
def truncate (keep : Nat) (text : Str) : Str :=
  ((splitLines text).take keep).flatMap (fun line => line ++ lit "\n")

structure Accepts (P : Primitives) (text : Str) (file : FileReplayLog) : Prop where
  loads : loadJsonl P text = .ok file
  chain : file.log.verifyChain P = .ok true
  integrity : ∃ report, file.log.verifyIntegrity P = .ok report ∧ report.ok = true

theorem seals_of_loadLine {number : Nat} {log log' : ReplayLog} {line : Str}
    (h : loadLine P number log line = .ok log') :
    ∃ frame, ReplayFrame.Seals P log.headHash frame ∧ log'.frames = log.frames ++ [frame] := by
  simp only [loadLine, bind_eq_ok, raiseIf_eq_ok, Bool.not_eq_false, PyVal.eq_str_right] at h
  obtain ⟨⟨frameId, previousHash, event, frameHash⟩, -, expected, hexpected, -, -, -, hprevious, h⟩ := h
  dsimp only at hexpected hprevious h
  obtain rfl := hprevious
  split at h
  · rename_i frameId event
    obtain ⟨hframes, -⟩ := spend_eq_ok h
    refine ⟨⟨frameId, log.headHash, event, expected⟩, ?_, hframes⟩
    exact (ReplayFrame.create_eq_ok P).mpr ⟨rfl, rfl, rfl, hexpected⟩
  · cases h
  · cases h

theorem loadLines_append {number : Nat} {log log' : ReplayLog} {lines lines' : List Str} :
    loadLines P number log (lines ++ lines') = .ok log' ↔
      ∃ middle, loadLines P number log lines = .ok middle ∧
        loadLines P (number + lines.length) middle lines' = .ok log' := by
  induction lines generalizing number log with
  | nil => simp [loadLines]
  | cons line lines ih =>
      simp only [List.cons_append, loadLines, bind_eq_ok, ih, List.length_cons]
      rw [show number + (lines.length + 1) = number + 1 + lines.length by omega]
      constructor
      · rintro ⟨first, hfirst, middle, hmiddle, h⟩
        exact ⟨middle, ⟨first, hfirst, hmiddle⟩, h⟩
      · rintro ⟨middle, ⟨first, hfirst, hmiddle⟩, h⟩
        exact ⟨first, hfirst, middle, hmiddle, h⟩

-- every line that is read adds one frame, sealed on the frames before it
theorem linked_of_loadLines {number : Nat} {log log' : ReplayLog} {lines : List Str}
    (hlog : log.Linked P) (h : loadLines P number log lines = .ok log') :
    log'.Linked P ∧ log'.frames.length = log.frames.length + lines.length ∧
      log.frames <+: log'.frames := by
  induction lines generalizing number log with
  | nil =>
      obtain rfl := Except.ok.inj h
      exact ⟨hlog, rfl, List.prefix_rfl⟩
  | cons line lines ih =>
      obtain ⟨middle, hmiddle, h⟩ := bind_eq_ok.mp h
      obtain ⟨frame, hseals, hframes⟩ := seals_of_loadLine hmiddle
      have hlinked : middle.Linked P := by
        rw [ReplayLog.Linked, hframes]
        exact (HashChain.linked_snoc _ _).mpr ⟨hlog, hseals⟩
      obtain ⟨hlog', hlength, hpre⟩ := ih hlinked h
      refine ⟨hlog', ?_, ?_⟩
      · rw [hlength, hframes, List.length_append, List.length_cons, List.length_cons,
          List.length_nil]
        omega
      · rw [hframes] at hpre
        exact (List.prefix_append log.frames [frame]).trans hpre

-- whatever load_jsonl accepts is a chain
theorem linked_of_loadJsonl {text : Str} {file : FileReplayLog}
    (h : loadJsonl P text = .ok file) :
    file.log.Linked P ∧ file.log.frames.length = (splitLines text).length ∧ file.text = text := by
  obtain ⟨log, hlog, h⟩ := bind_eq_ok.mp h
  obtain rfl := Except.ok.inj h
  obtain ⟨hlinked, hlength, -⟩ :=
    linked_of_loadLines (show ({} : ReplayLog).Linked P from trivial) hlog
  exact ⟨hlinked, by rw [hlength]; exact Nat.zero_add _, rfl⟩

-- the file is one line of printable text for every frame
structure Shaped (P : Primitives) (file : FileReplayLog) : Prop where
  linked : file.log.Linked P
  lines : ∃ texts : List Str, (∀ text ∈ texts, ∀ p ∈ text, Printable p) ∧
    file.text = texts.flatMap (fun text => text ++ lit "\n") ∧
    texts.length = file.log.frames.length

theorem Shaped.append {file file' : FileReplayLog} {frameId : Str} {event : PyDict}
    {frame : ReplayFrame} (hfile : Shaped P file)
    (h : file.append P frameId event = .ok (file', frame)) : Shaped P file' := by
  obtain ⟨line, happend, hline, htext⟩ := append_eq_ok h
  obtain ⟨hlinked, texts, hprintable, hfiletext, hlength⟩ := hfile
  obtain ⟨hcreate, hlog⟩ := (ReplayLog.append_eq_ok P).mp happend
  obtain ⟨text, hwritten⟩ := exists_line (ReplayFrame.seals_of_create P hcreate)
  have hsame := hwritten.written.symm.trans hline
  obtain rfl := Except.ok.inj hsame
  refine ⟨ReplayLog.linked_append P hlinked happend, texts ++ [text], ?_, ?_, ?_⟩
  · exact List.forall_mem_append.mpr
      ⟨hprintable, List.forall_mem_singleton.mpr hwritten.printable⟩
  · rw [htext, hfiletext, List.flatMap_append, List.flatMap_singleton]
  · rw [hlog, List.length_append, List.length_append, hlength, List.length_singleton,
      List.length_singleton]

theorem Shaped.reload {file file' : FileReplayLog} (hfile : Shaped P file)
    (h : loadJsonl P file.text = .ok file') : Shaped P file' := by
  obtain ⟨-, texts, hprintable, htext, -⟩ := hfile
  obtain ⟨hlinked, hlength, hsame⟩ := linked_of_loadJsonl h
  refine ⟨hlinked, texts, hprintable, hsame.trans htext, ?_⟩
  rw [hlength, htext, splitLines_unlines hprintable]

theorem Written.shaped {file : FileReplayLog} (h : Written P file) : Shaped P file := by
  induction h with
  | new => exact ⟨trivial, [], by simp, rfl, rfl⟩
  | append _ happend ih => exact ih.append happend
  | reload _ hload ih => exact ih.reload hload

theorem Shaped.split {file : FileReplayLog} (h : Shaped P file) (keep : Nat) :
    splitLines (truncate keep file.text) = (splitLines file.text).take keep ∧
      (splitLines file.text).length = file.log.frames.length := by
  obtain ⟨-, texts, hprintable, htext, hlength⟩ := h
  rw [truncate, htext, splitLines_unlines hprintable]
  exact ⟨splitLines_unlines fun text hmem => hprintable text (List.mem_of_mem_take hmem), hlength⟩

-- what is left of a file loads whenever the file does, to the first of its frames
theorem Shaped.loads_truncated {file full : FileReplayLog} (h : Shaped P file)
    (hload : loadJsonl P file.text = .ok full) (keep : Nat) :
    ∃ short, loadJsonl P (truncate keep file.text) = .ok short ∧
      short.log.frames <+: full.log.frames := by
  obtain ⟨log, hlog, hfull⟩ := bind_eq_ok.mp hload
  obtain rfl := Except.ok.inj hfull
  rw [← List.take_append_drop keep (splitLines file.text)] at hlog
  obtain ⟨middle, hmiddle, hrest⟩ := loadLines_append.mp hlog
  obtain ⟨hlinked, -, -⟩ :=
    linked_of_loadLines (show ({} : ReplayLog).Linked P from trivial) hmiddle
  obtain ⟨-, -, hpre⟩ := linked_of_loadLines hlinked hrest
  refine ⟨⟨middle, truncate keep file.text⟩, bind_eq_ok.mpr ⟨middle, ?_, rfl⟩, hpre⟩
  rw [(h.split keep).1]
  exact hmiddle

theorem Shaped.accepts_truncated {file full : FileReplayLog} (h : Shaped P file)
    (hfull : Accepts P file.text full) (keep : Nat) :
    ∃ short, Accepts P (truncate keep file.text) short := by
  obtain ⟨short, hshort, hpre⟩ := h.loads_truncated hfull.loads keep
  have hintegral := (ReplayLog.integral_iff.mp hfull.integrity).mono hpre
  exact ⟨short, hshort, (ReplayLog.verifyChain_eq_true P).mpr hintegral.linked,
    ReplayLog.integral_iff.mpr hintegral⟩

theorem Shaped.length_truncated {file short : FileReplayLog} {keep : Nat} (h : Shaped P file)
    (hkeep : keep < file.log.frames.length)
    (hload : loadJsonl P (truncate keep file.text) = .ok short) :
    short.log.frames.length = keep := by
  obtain ⟨hsplit, hlength⟩ := h.split keep
  rw [(linked_of_loadJsonl hload).2.1, hsplit, List.length_take, hlength]
  omega

-- an anchor tells a shortened file from the file, which a load cannot
theorem truncation_certified {file : FileReplayLog} (h : Written P file) {keep : Nat}
    (hkeep : keep < file.log.frames.length) :
    ((∃ full, Accepts P file.text full) → ∃ short, Accepts P (truncate keep file.text) short) ∧
    ∀ signer anchor, file.log.createAnchor P signer = .ok anchor →
      (∀ key, (∀ payload, verifySignature P key payload (signer.sign payload) = true) →
        file.log.verifyAnchor P anchor key = .ok true) ∧
      ∀ short, loadJsonl P (truncate keep file.text) = .ok short →
        ∀ key, short.log.verifyAnchor P anchor key ≠ .ok true := by
  have hshaped := h.shaped
  constructor
  · rintro ⟨full, hfull⟩
    exact hshaped.accepts_truncated hfull keep
  · intro signer anchor hanchor
    refine ⟨fun key hkey => ReplayLog.verifyAnchor_of_createAnchor hanchor hkey, ?_⟩
    intro short hshort key hverify
    have hlength := ReplayLog.length_of_verifyAnchor hanchor hverify
    rw [hshaped.length_truncated hkeep hshort] at hlength
    omega

theorem Written.appendAll {file file' : FileReplayLog} {entries : List (Str × PyDict)}
    (hfile : Written P file) (h : file.appendAll P entries = .ok file') : Written P file' := by
  induction entries generalizing file with
  | nil =>
      obtain rfl := Except.ok.inj h
      exact hfile
  | cons entry entries ih =>
      obtain ⟨frameId, event⟩ := entry
      obtain ⟨⟨middle, frame⟩, happend, h⟩ := bind_eq_ok.mp h
      exact ih (hfile.append happend) h

def twoFrames : List (Str × PyDict) := [("f-1", []), ("f-2", [])]

theorem twoFrames_run :
    (appendAll sizePrimitives {} twoFrames).toOption.any (fun file =>
      decide (file.log.frames.length = 2) &&
        (loadJsonl sizePrimitives file.text).toOption.any (fun full =>
          (full.log.verifyIntegrity sizePrimitives).toOption.any (fun report => report.ok))) =
      true := by
  decide +kernel

theorem twoFrames_accepts :
    ∃ file full, appendAll sizePrimitives {} twoFrames = .ok file ∧ file.log.frames.length = 2 ∧
      Accepts sizePrimitives file.text full := by
  obtain ⟨file, hfile, hrun⟩ := isOk_of_any twoFrames_run
  obtain ⟨hlength, hrun⟩ := Bool.and_eq_true_iff.mp hrun
  obtain ⟨full, hfull, hrun⟩ := isOk_of_any hrun
  obtain ⟨report, hreport, hok⟩ := isOk_of_any hrun
  have hlinked := (linked_of_loadJsonl hfull).1
  exact ⟨file, full, hfile, of_decide_eq_true hlength, hfull,
    (ReplayLog.verifyChain_eq_true _).mpr hlinked, report, hreport, hok⟩

theorem truncation_certified_twoFrames :
    ∃ file, appendAll sizePrimitives {} twoFrames = .ok file ∧
      ((∃ full, Accepts sizePrimitives file.text full) →
        ∃ short, Accepts sizePrimitives (truncate 1 file.text) short) ∧
      ∀ signer anchor, file.log.createAnchor sizePrimitives signer = .ok anchor →
        (∀ key, (∀ payload,
            verifySignature sizePrimitives key payload (signer.sign payload) = true) →
          file.log.verifyAnchor sizePrimitives anchor key = .ok true) ∧
        ∀ short, loadJsonl sizePrimitives (truncate 1 file.text) = .ok short →
          ∀ key, short.log.verifyAnchor sizePrimitives anchor key ≠ .ok true := by
  obtain ⟨file, -, hfile, hlength, -⟩ := twoFrames_accepts
  exact ⟨file, hfile, truncation_certified (Written.new.appendAll hfile) (by rw [hlength]; decide)⟩

theorem truncation_accepted :
    ¬ ∀ (P : Primitives) (file : FileReplayLog), Written P file →
      ∀ keep < file.log.frames.length, ∀ short, ¬ Accepts P (truncate keep file.text) short := by
  intro h
  obtain ⟨file, full, hfile, hlength, hfull⟩ := twoFrames_accepts
  have hwritten := Written.new.appendAll hfile
  obtain ⟨short, hshort⟩ := hwritten.shaped.accepts_truncated hfull 1
  exact h sizePrimitives file hwritten 1 (by rw [hlength]; decide) short hshort

end FileReplayLog

end GovernedAutonomy
