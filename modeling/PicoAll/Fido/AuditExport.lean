import PicoAll.Fido.AuditJournal

/-!
# Exports of the audit journal

An export is checked by the chain over its entries, from its base on, which has to lead to the head of
a checkpoint. That of the journal itself, if the encoder has room for it, passes, and whoever makes
up another one that does has two inputs of one hash (`audit_export_pinned`).
-/

namespace PicoAll

open FaultProgram List

variable {sha256 : Bytes → Bytes} {serialHash : Bytes}

/-- Two inputs of one hash, where two chains over as many entries come together. -/
def auditCollision (sha256 : Bytes → Bytes) (head head' : Bytes) :
    List Bytes → List Bytes → Option (Bytes × Bytes)
  | entry :: entries, entry' :: entries' =>
    let next := auditChain sha256 head entry
    let next' := auditChain sha256 head' entry'
    if next = next' ∧ head ++ entry ≠ head' ++ entry' then some (head ++ entry, head' ++ entry')
    else auditCollision sha256 next next' entries entries'
  | _, _ => none

/-- **Two chains that come together** are the same or show a collision. -/
theorem auditCollision_spec {entries entries' : List Bytes} {head head' : Bytes}
    (hlength : entries.length = entries'.length)
    (hentries : ∀ entry ∈ entries ++ entries', entry.length = auditEntryLen)
    (hhead : entries.foldl (auditChain sha256) head = entries'.foldl (auditChain sha256) head') :
    (head = head' ∧ entries = entries') ∨
      ∃ inputs ∈ auditCollision sha256 head head' entries entries',
        inputs.1 ≠ inputs.2 ∧ sha256 inputs.1 = sha256 inputs.2 := by
  induction entries generalizing head head' entries' with
  | nil => exact .inl ⟨by rwa [length_eq_zero_iff.mp hlength.symm] at hhead,
      (length_eq_zero_iff.mp hlength.symm).symm⟩
  | cons entry entries ih =>
    obtain ⟨entry', entries', rfl⟩ := exists_cons_of_length_eq_add_one hlength.symm
    have hrest := ih (Nat.succ.inj hlength) (fun e he ↦ hentries e (by
      rw [mem_append] at he ⊢
      exact he.imp (.tail _) (.tail _))) hhead
    rw [auditCollision]
    split_ifs with hinputs
    · exact .inr ⟨_, rfl, hinputs.2, hinputs.1⟩
    · refine hrest.imp_left fun ⟨hnext, htail⟩ ↦ ?_
      have heq := not_not.mp fun hne ↦ hinputs ⟨hnext, hne⟩
      obtain ⟨hsame, hentry⟩ := append_inj' heq ((hentries entry (by simp)).trans
        (hentries entry' (by simp)).symm)
      exact ⟨hsame, cons_eq_cons.mpr ⟨hentry, htail⟩⟩

/-- **Exports and checkpoints.** In every state a run leads to, an export of the journal is what the
encoder makes of entries that lead to the head of a checkpoint made then, or its refusal. And if
anyone makes up a base and some entries that lead there, they are those of all the entries there have
been, also of those that are not retained any more, or show a collision of the hash. -/
theorem audit_export_pinned (hsha : ∀ data, (sha256 data).length = 32) {log : AuditLog}
    {s : FsState AuditRam} (h : AuditReachable sha256 serialHash log s) {clock : AuditClock}
    {sign : Option (Bytes → Option (Bytes × Bytes))} {challenge : Bytes} {os : List Outcome}
    {checkpoint : AuditCheckpoint}
    (hcheckpoint : (auditCheckpoint sha256 serialHash clock sign challenge).result s os =
      .ok (.ok checkpoint)) (encode : List CborToken → Except CborError Bytes) :
    (∃ start base entries,
      auditExport sha256 serialHash encode s.files =
          (encode (auditExportTokens start checkpoint.seq base entries)).mapError
            (fun _ ↦ .processing) ∧
        start + entries.length = checkpoint.seq ∧
        entries.foldl (auditChain sha256) base = checkpoint.head) ∧
    ∀ (start : ℕ) (base : Bytes) (entries : List Bytes), start + entries.length = checkpoint.seq →
      (∀ entry ∈ entries, entry.length = auditEntryLen) →
      entries.foldl (auditChain sha256) base = checkpoint.head →
      (base = auditFold sha256 serialHash (log.entries.take start) ∧
        entries = log.entries.drop start) ∨
      ∃ inputs ∈ auditCollision sha256 base (auditFold sha256 serialHash (log.entries.take start))
          entries (log.entries.drop start),
        inputs.1 ≠ inputs.2 ∧ sha256 inputs.1 = sha256 inputs.2 := by
  have hjournal := h.journalIs hsha
  obtain ⟨-, hanswer⟩ :=
    final_of_result_ok (hjournal.wp_checkpoint hsha clock sign challenge) hcheckpoint
  obtain ⟨hseq, hhead⟩ := hanswer checkpoint rfl
  rw [hseq, hhead]
  refine ⟨?_, fun start base entries hlength hentries hfold ↦ auditCollision_spec ?_ ?_ ?_⟩
  · obtain ⟨record, hload, hrecord⟩ := hjournal.loads
    have hstart := hjournal.ok.start_le
    refine ⟨log.start, auditBase record, auditEntries record, ?_, ?_, hrecord.head_eq⟩
    · rw [auditExport, hload, ← hrecord.start_eq, ← hrecord.next_eq]
    · rw [hrecord.entries_eq, length_drop]
      omega
  · rw [length_drop]
    omega
  · refine forall_mem_append.mpr ⟨hentries, fun entry hmem ↦ ?_⟩
    obtain ⟨n, hn⟩ := mem_iff_getElem?.mp (mem_of_mem_drop hmem)
    exact (hjournal.ok.entry_ok n entry hn).1
  · rw [hfold, auditFold, auditFold, ← foldl_append, take_append_drop]

theorem audit_export_pinned_toy : ∃ start base entries,
    auditExport auditToyHash [] (plainCbor.write 1976) auditToyAsserted.files =
        (plainCbor.write 1976 (auditExportTokens start 2 base entries)).mapError
          (fun _ ↦ .processing) ∧
      start + entries.length = 2 ∧
      entries.foldl (auditChain auditToyHash) base = auditToyCheckpoint.head := by
  obtain ⟨log, hreachable⟩ := auditToyAsserted_reachable
  exact (audit_export_pinned length_auditToyHash hreachable auditToyCheckpoint_result
    (plainCbor.write 1976)).1

end PicoAll
