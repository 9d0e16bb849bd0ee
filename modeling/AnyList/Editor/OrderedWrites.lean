import AnyList.Editor.EditorStore

namespace AnyList.Editor.EditorStore

open AnyList.Library.SerialTasks

theorem spliceOut_cons {β : Type} (n : ℕ) (b : β) (rest : List (ℕ × β)) :
    spliceOut ((n, b) :: rest) n = rest := by
  simp [spliceOut, List.findIdx?_cons]

namespace RecordState

variable {record record' : RecordState} {done live rest : List Task} {t : Task} {viewer : String}
  {today : Int} {n : ℕ} {operation : Operation} {succeeded : Bool}

/-- What a step may make of a record, and the write that it sends for it, if any: who sends it, for
which task and what. -/
inductive Change (viewer : String) (today : Int) (record : RecordState) :
    RecordState → Option (String × ℕ × Operation) → Prop
  | kept (stale : Bool) : Change viewer today record { record with stale } none
  | reseeded (title : EditorTitle) : Change viewer today record (record.reseed title) none
  | issued (operation : Operation) :
      Change viewer today record (record.issue viewer today operation) none
  | advanced (n : ℕ) (t : Task) (phase : Phase) (importing : Bool) (ht : record.chain[n]? = some t)
      (hqueued : t.Queued) (hready : Ready Task.Settled record.chain n)
      (hphase : phase = .importing ∨ ∃ id, phase = .resolved id)
      (himporting : phase = .importing ∨ record.importing = true → importing = true) :
      Change viewer today record { record.setPhase n phase with importing } none
  | imported (reply : Option ℕ) : Change viewer today record (record.imported reply) none
  | sent (n : ℕ) (t : Task) (ht : record.chain[n]? = some t) (hphase : ∃ id, t.phase = .resolved id)
      (hviewer : t.viewer = viewer) :
      Change viewer today record (record.setPhase n .requesting) (some (viewer, n, t.operation))
  | failed (n : ℕ) (t : Task) (ht : record.chain[n]? = some t) (hlive : ¬t.Settled)
      (hready : t.Queued → Ready Task.Settled record.chain n) :
      Change viewer today record (record.settle today n t.operation false) none
  | succeeded (n : ℕ) (t : Task) (answer : Answer) (ht : record.chain[n]? = some t)
      (hphase : t.phase = .requesting) :
      Change viewer today record
        ((record.commit answer t.operation).settle today n t.operation true) none

section changes

theorem not_settled_of_queued (h : t.Queued) : ¬t.Settled := by
  simp [Task.Settled, show t.phase = .queued from h]

theorem not_settled_of_resolved {id : Option ℕ} (h : t.phase = .resolved id) :
    ¬t.Settled ∧ ¬t.Queued := by
  simp [Task.Settled, Task.Queued, h]

theorem not_settled_of_requesting (h : t.phase = .requesting) : ¬t.Settled ∧ ¬t.Queued := by
  simp [Task.Settled, Task.Queued, h]

theorem chain_issue : (record.issue viewer today operation).chain =
    record.chain ++ [⟨operation, viewer, .queued⟩] := by
  cases operation <;> rfl

theorem chain_settle : (record.settle today n operation succeeded).chain =
    record.chain.modify n fun t ↦ { t with phase := .settled succeeded } := by
  cases operation <;> rfl

theorem chain_commit (answer : Answer) : (record.commit answer operation).chain = record.chain := by
  cases operation with
  | entry patch => cases patch <;> rfl
  | library desired => rfl

theorem change_refl : Change viewer today record record none := .kept record.stale

theorem change_start : Change viewer today record (record.start viewer today n).1 none := by
  unfold start
  cases ht : record.chain[n]? with
  | none => exact change_refl
  | some t =>
    dsimp only
    split_ifs with hstarts hviewer
    · exact .failed n t ht (not_settled_of_queued hstarts.1) fun _ ↦ hstarts.2
    · cases record.title.id.filter (· ≠ 0) with
      | some id =>
        exact .advanced n t (.resolved (some id)) record.importing ht hstarts.1 hstarts.2
          (.inr ⟨_, rfl⟩) fun h ↦ h.resolve_left (by simp)
      | none =>
        exact .advanced n t .importing true ht hstarts.1 hstarts.2 (.inl rfl) fun _ ↦ rfl
    · exact change_refl

theorem change_resume : Change viewer today record (record.resume viewer today n).1
    ((record.resume viewer today n).2.bind fun _ ↦
      (record.chain[n]?).map fun t ↦ (viewer, n, t.operation)) := by
  unfold resume
  cases ht : record.chain[n]? with
  | none => exact change_refl
  | some t =>
    cases hphase : t.phase with
    | queued | importing | requesting | settled => simp only [hphase]; exact change_refl
    | resolved id =>
      obtain ⟨hlive, hstarted⟩ := not_settled_of_resolved hphase
      have hfailed : Change viewer today record (record.settle today n t.operation false) none :=
        .failed n t ht hlive fun hq ↦ absurd hq hstarted
      cases id with
      | none => simp only [hphase]; exact hfailed
      | some id =>
        simp only [hphase]
        split_ifs with hviewer
        · exact hfailed
        · exact .sent n t ht ⟨_, hphase⟩ (not_not.mp hviewer)

theorem change_answered (reply : Option Answer) :
    Change viewer today record (record.answered today n reply) none := by
  unfold answered
  cases ht : record.chain[n]? with
  | none => exact change_refl
  | some t =>
    dsimp only
    split_ifs with hphase
    · cases reply with
      | some answer => exact .succeeded n t answer ht hphase
      | none =>
        obtain ⟨hlive, hstarted⟩ := not_settled_of_requesting hphase
        exact .failed n t ht hlive fun hq ↦ absurd hq hstarted
    · exact change_refl

end changes

section order

/-- The operations of a record settle in the order of their issue, and those that have not settled
are the pending ones. -/
structure Ordered (record : RecordState) (done live : List Task) : Prop where
  chain : record.chain = done ++ live
  serial : Serial Task.Queued Task.Settled done live
  pending : record.pending = numbered (fun t : Task ↦ t.operation.entry?) done.length live
  libraryPending :
    record.libraryPending = numbered (fun t : Task ↦ t.operation.library?) done.length live

theorem ordered_new (title : EditorTitle) : Ordered (.new title) [] [] :=
  ⟨rfl, serial_nil, rfl, rfl⟩

theorem Ordered.congr (h : Ordered record done live) (hchain : record'.chain = record.chain)
    (hpending : record'.pending = record.pending)
    (hlibrary : record'.libraryPending = record.libraryPending) : Ordered record' done live :=
  ⟨hchain.trans h.chain, h.serial, hpending.trans h.pending, hlibrary.trans h.libraryPending⟩

theorem Ordered.issue (h : Ordered record done live) :
    Ordered (record.issue viewer today operation) done (live ++ [⟨operation, viewer, .queued⟩]) := by
  have hchain : record.chain.length = done.length + live.length := by
    rw [h.chain, List.length_append]
  have hserial : Serial Task.Queued Task.Settled done
      (live ++ [⟨operation, viewer, .queued⟩]) :=
    h.serial.append (by rfl) (by simp [Task.Settled])
  have hchained : (record.issue viewer today operation).chain =
      done ++ (live ++ [⟨operation, viewer, .queued⟩]) := by
    rw [chain_issue, h.chain, List.append_assoc]
  cases operation with
  | entry patch =>
    refine ⟨hchained, hserial, ?_, ?_⟩
    · change record.pending ++ [(record.chain.length, patch)] = _
      rw [numbered_append, ← h.pending, hchain]
      rfl
    · change record.libraryPending = _
      rw [numbered_append, ← h.libraryPending]
      exact (List.append_nil _).symm
  | library desired =>
    refine ⟨hchained, hserial, ?_, ?_⟩
    · change record.pending = _
      rw [numbered_append, ← h.pending]
      exact (List.append_nil _).symm
    · change record.libraryPending ++ [(record.chain.length, desired)] = _
      rw [numbered_append, ← h.libraryPending, hchain]
      rfl

theorem Ordered.first (h : Ordered record done live) (ht : record.chain[n]? = some t)
    (hlive : ¬t.Settled) (hready : t.Queued → Ready Task.Settled record.chain n) :
    ∃ rest, live = t :: rest ∧ n = done.length := by
  rw [h.chain] at ht hready
  exact h.serial.first ht hlive hready

theorem Ordered.setPhase (h : Ordered record done (t :: rest)) (phase : Phase)
    (hlive : ¬Task.Settled { t with phase }) :
    Ordered (record.setPhase done.length phase) done ({ t with phase } :: rest) := by
  refine ⟨?_, h.serial.advance hlive, h.pending, h.libraryPending⟩
  change record.chain.modify done.length _ = _
  rw [h.chain, modify_length]

theorem Ordered.settle (h : Ordered record done (t :: rest)) (succeeded : Bool) :
    Ordered (record.settle today done.length t.operation succeeded)
      (done ++ [{ t with phase := .settled succeeded }]) rest := by
  have hserial : Serial Task.Queued Task.Settled
      (done ++ [{ t with phase := .settled succeeded }]) rest :=
    h.serial.settle (by cases succeeded <;> simp [Task.Settled])
  have hchain : (record.settle today done.length t.operation succeeded).chain =
      (done ++ [{ t with phase := .settled succeeded }]) ++ rest := by
    rw [chain_settle, h.chain, modify_length, List.append_assoc]
    rfl
  have hpending := h.pending
  have hlibrary := h.libraryPending
  rw [numbered] at hpending hlibrary
  cases t with
  | mk operation taskViewer phase =>
    cases operation with
    | entry patch =>
      refine ⟨hchain, hserial, ?_, ?_⟩
      · change spliceOut record.pending done.length = _
        rw [hpending, List.length_append]
        exact spliceOut_cons _ _ _
      · change record.libraryPending = _
        rw [hlibrary, List.length_append]
        rfl
    | library desired =>
      refine ⟨hchain, hserial, ?_, ?_⟩
      · change record.pending = _
        rw [hpending, List.length_append]
        rfl
      · change spliceOut record.libraryPending done.length = _
        rw [hlibrary, List.length_append]
        exact spliceOut_cons _ _ _

theorem Ordered.commit (h : Ordered record done live) (answer : Answer) :
    Ordered (record.commit answer operation) done live := by
  cases operation with
  | entry patch => cases patch <;> exact h.congr rfl rfl rfl
  | library desired => exact h.congr rfl rfl rfl

/-- A task that waits for the import goes on with its answer. -/
def answerImport (reply : Option ℕ) (t : Task) : Task :=
  if t.phase = .importing then { t with phase := .resolved reply } else t

theorem settled_answerImport (reply : Option ℕ) (t : Task) :
    (answerImport reply t).Settled ↔ t.Settled := by
  unfold answerImport
  split_ifs with h
  · simp [Task.Settled, h]
  · exact Iff.rfl

theorem operation_answerImport (reply : Option ℕ) (t : Task) :
    (answerImport reply t).operation = t.operation := by
  unfold answerImport
  split_ifs <;> rfl

theorem viewer_answerImport (reply : Option ℕ) (t : Task) :
    (answerImport reply t).viewer = t.viewer := by
  unfold answerImport
  split_ifs <;> rfl

theorem answerImport_of_ne (reply : Option ℕ) (h : t.phase ≠ .importing) :
    answerImport reply t = t := if_neg h

theorem Ordered.imported (h : Ordered record done live) (reply : Option ℕ) :
    ∃ done' live', Ordered (record.imported reply) done' live' := by
  unfold RecordState.imported
  split_ifs
  · refine ⟨done.map (answerImport reply), live.map (answerImport reply), ?_, ?_, ?_, ?_⟩
    · change record.chain.map (answerImport reply) = _
      rw [h.chain, List.map_append]
    · refine h.serial.map (settled_answerImport reply) fun t ht ↦ ?_
      rw [answerImport_of_ne reply (by rw [show t.phase = .queued from ht]; decide)]
      exact ht
    · change record.pending = _
      rw [List.length_map, numbered_map]
      · exact h.pending
      · intro t
        rw [operation_answerImport]
    · change record.libraryPending = _
      rw [List.length_map, numbered_map]
      · exact h.libraryPending
      · intro t
        rw [operation_answerImport]
  · exact ⟨done, live, h⟩

/-- Every change of a record keeps its operations in their order. -/
theorem Ordered.change {sent : Option (String × ℕ × Operation)} (h : Ordered record done live)
    (hc : Change viewer today record record' sent) : ∃ done' live', Ordered record' done' live' := by
  cases hc with
  | kept stale => exact ⟨done, live, h.congr rfl rfl rfl⟩
  | reseeded title =>
    unfold reseed
    split_ifs
    · exact ⟨done, live, h⟩
    · exact ⟨done, live, h.congr rfl rfl rfl⟩
  | issued operation => exact ⟨_, _, h.issue⟩
  | advanced n t phase importing ht hqueued hready hphase himporting =>
    obtain ⟨rest, rfl, rfl⟩ := h.first ht (not_settled_of_queued hqueued) fun _ ↦ hready
    refine ⟨_, _, (h.setPhase phase ?_).congr rfl rfl rfl⟩
    obtain rfl | ⟨id, rfl⟩ := hphase
    · simp [Task.Settled]
    · simp [Task.Settled]
  | imported reply => exact h.imported reply
  | sent n t ht hphase hviewer =>
    obtain ⟨id, hphase⟩ := hphase
    obtain ⟨hlive, hstarted⟩ := not_settled_of_resolved hphase
    obtain ⟨rest, rfl, rfl⟩ := h.first ht hlive fun hq ↦ absurd hq hstarted
    exact ⟨_, _, h.setPhase .requesting (by simp [Task.Settled])⟩
  | failed n t ht hlive hready =>
    obtain ⟨rest, rfl, rfl⟩ := h.first ht hlive hready
    exact ⟨_, _, h.settle false⟩
  | succeeded n t answer ht hphase =>
    obtain ⟨hlive, hstarted⟩ := not_settled_of_requesting hphase
    obtain ⟨rest, rfl, rfl⟩ := h.first ht hlive fun hq ↦ absurd hq hstarted
    exact ⟨_, _, (h.commit answer).settle true⟩

end order

section log

variable {writes : List (String × ℕ × Operation)}

/-- The writes that a record has sent, in their order, are those of its tasks that have been sent. -/
structure Logged (record : RecordState) (writes : List (String × ℕ × Operation)) : Prop where
  issued : ∀ w ∈ writes, ∃ t : Task, record.chain[w.2.1]? = some t ∧ t.viewer = w.1 ∧
    t.operation = w.2.2 ∧ (t.phase = .requesting ∨ t.Settled)
  sent : ∀ (n : ℕ) (t : Task), record.chain[n]? = some t →
    t.phase = .requesting ∨ t.phase = .settled true → n ∈ writes.map fun w ↦ w.2.1
  sorted : (writes.map fun w ↦ w.2.1).Pairwise (· < ·)

theorem logged_new (title : EditorTitle) : Logged (.new title) [] := by
  refine ⟨fun w hw ↦ (by cases hw), fun n t ht ↦ ?_, List.Pairwise.nil⟩
  simp [RecordState.new] at ht

theorem Logged.of_chain (h : Logged record writes)
    (hkeep : ∀ (n : ℕ) (t : Task), record.chain[n]? = some t →
      ∃ t' : Task, record'.chain[n]? = some t' ∧ t'.viewer = t.viewer ∧ t'.operation = t.operation ∧
        (t.phase = .requesting ∨ t.Settled → t'.phase = .requesting ∨ t'.Settled))
    (hback : ∀ (n : ℕ) (t' : Task), record'.chain[n]? = some t' →
      t'.phase = .requesting ∨ t'.phase = .settled true →
      ∃ t : Task, record.chain[n]? = some t ∧ (t.phase = .requesting ∨ t.phase = .settled true)) :
    Logged record' writes := by
  refine ⟨fun w hw ↦ ?_, fun n t' ht' hsent ↦ ?_, h.sorted⟩
  · obtain ⟨t, ht, hviewer, hoperation, hsent⟩ := h.issued w hw
    obtain ⟨t', ht', hviewer', hoperation', hsent'⟩ := hkeep _ t ht
    exact ⟨t', ht', hviewer'.trans hviewer, hoperation'.trans hoperation, hsent' hsent⟩
  · obtain ⟨t, ht, hsent⟩ := hback n t' ht' hsent
    exact h.sent n t ht hsent

theorem Logged.congr (h : Logged record writes) (hchain : record'.chain = record.chain) :
    Logged record' writes := by
  refine h.of_chain (fun n t ht ↦ ?_) fun n t' ht' hsent ↦ ?_
  · rw [hchain]
    exact ⟨t, ht, rfl, rfl, id⟩
  · rw [hchain] at ht'
    exact ⟨t', ht', hsent⟩

theorem Logged.modify (h : Logged record writes) {phase : Phase} (ht : record.chain[n]? = some t)
    (hchain : record'.chain = record.chain.modify n fun t ↦ { t with phase })
    (hkeep : t.phase = .requesting ∨ t.Settled → phase = .requesting ∨ Task.Settled { t with phase })
    (hback : phase = .requesting ∨ phase = .settled true → t.phase = .requesting) :
    Logged record' writes := by
  refine h.of_chain (fun m x hx ↦ ?_) fun m x hx hsent ↦ ?_
  · rw [hchain, List.getElem?_modify, hx]
    by_cases hm : n = m
    · subst hm
      obtain rfl : t = x := Option.some.inj (ht.symm.trans hx)
      exact ⟨{ t with phase }, by simp, rfl, rfl, hkeep⟩
    · exact ⟨x, by simp [hm], rfl, rfl, id⟩
  · rw [hchain, List.getElem?_modify] at hx
    by_cases hm : n = m
    · subst hm
      rw [ht] at hx
      obtain rfl : { t with phase } = x := by simpa using hx
      exact ⟨t, ht, .inl (hback hsent)⟩
    · exact ⟨x, by simpa [hm] using hx, hsent⟩

theorem Logged.issue (h : Logged record writes) :
    Logged (record.issue viewer today operation) writes := by
  refine h.of_chain (fun n t ht ↦ ?_) fun n t' ht' hsent ↦ ?_
  · obtain ⟨hlt, -⟩ := List.getElem?_eq_some_iff.mp ht
    rw [chain_issue, List.getElem?_append_left hlt]
    exact ⟨t, ht, rfl, rfl, id⟩
  · rw [chain_issue, List.getElem?_append] at ht'
    split_ifs at ht' with hlt
    · exact ⟨t', ht', hsent⟩
    · rw [List.getElem?_singleton] at ht'
      split_ifs at ht'
      · obtain rfl := Option.some.inj ht'
        simp at hsent

theorem Logged.imported (h : Logged record writes) (reply : Option ℕ) :
    Logged (record.imported reply) writes := by
  unfold RecordState.imported
  split_ifs
  · have hchain (n : ℕ) : (record.chain.map (answerImport reply))[n]? =
        (record.chain[n]?).map (answerImport reply) := List.getElem?_map
    refine h.of_chain (fun n t ht ↦ ?_) fun n t' ht' hsent ↦ ?_
    · refine ⟨answerImport reply t, (hchain n).trans (by rw [ht]; rfl), viewer_answerImport reply t,
        operation_answerImport reply t, fun hsent ↦ ?_⟩
      rw [settled_answerImport]
      refine hsent.imp_left fun hrequesting ↦ ?_
      rw [answerImport_of_ne reply (by rw [hrequesting]; decide)]
      exact hrequesting
    · obtain ⟨t, ht, rfl⟩ := Option.map_eq_some_iff.mp ((hchain n).symm.trans ht')
      refine ⟨t, ht, ?_⟩
      unfold answerImport at hsent
      split_ifs at hsent
      · simp at hsent
      · exact hsent
  · exact h

/-- A request is sent for a task after those before it, and of each task once. -/
theorem Logged.change {sent : Option (String × ℕ × Operation)} (h : Logged record writes)
    (horder : Ordered record done live) (hc : Change viewer today record record' sent) :
    Logged record' (writes ++ sent.toList) := by
  cases hc with
  | kept stale => exact (List.append_nil writes).symm ▸ h.congr rfl
  | reseeded title =>
    rw [Option.toList_none, List.append_nil]
    unfold reseed
    split_ifs
    · exact h
    · exact h.congr rfl
  | issued operation =>
    rw [Option.toList_none, List.append_nil]
    exact h.issue
  | advanced n t phase importing ht hqueued hready hphase himporting =>
    rw [Option.toList_none, List.append_nil]
    refine h.modify ht rfl (fun hsent ↦ ?_) fun hsent ↦ ?_
    · rw [show t.phase = .queued from hqueued] at hsent
      exact absurd (hsent.resolve_left (by decide)) (not_settled_of_queued hqueued)
    · obtain rfl | ⟨id, rfl⟩ := hphase
      · simp at hsent
      · simp at hsent
  | imported reply =>
    rw [Option.toList_none, List.append_nil]
    exact h.imported reply
  | sent n t ht hphase hviewer =>
    obtain ⟨id, hphase⟩ := hphase
    have hafter : ∀ w ∈ writes, w.2.1 < n := by
      intro w hw
      obtain ⟨t', ht', -, -, hsent⟩ := h.issued w hw
      obtain ⟨hlive, hstarted⟩ := not_settled_of_resolved hphase
      obtain ⟨rest, rfl, rfl⟩ := horder.first ht hlive fun hq ↦ absurd hq hstarted
      obtain hrequesting | hsettled := hsent
      · obtain ⟨hlive', hstarted'⟩ := not_settled_of_requesting hrequesting
        obtain ⟨rest', heq, -⟩ := horder.first ht' hlive' fun hq ↦ absurd hq hstarted'
        rw [List.cons.injEq] at heq
        rw [← heq.1, hphase] at hrequesting
        cases hrequesting
      · rw [horder.chain] at ht'
        exact horder.serial.lt_length ht' hsettled
    have hchain : (record.setPhase n .requesting).chain =
        record.chain.modify n fun t ↦ { t with phase := .requesting } := rfl
    refine ⟨fun w hw ↦ ?_, fun m x hx hsent ↦ ?_, ?_⟩
    · rw [hchain, List.getElem?_modify]
      obtain hw | hw := List.mem_append.mp hw
      · obtain ⟨t', ht', hviewer', hoperation, hsent⟩ := h.issued w hw
        have hne := (hafter w hw).ne'
        exact ⟨t', by simp [ht', hne], hviewer', hoperation, hsent⟩
      · obtain rfl := List.mem_singleton.mp hw
        exact ⟨{ t with phase := .requesting }, by simp [ht], hviewer, rfl, .inl rfl⟩
    · rw [List.map_append, List.mem_append]
      by_cases hm : n = m
      · exact .inr (List.mem_singleton.mpr hm.symm)
      · rw [hchain, List.getElem?_modify] at hx
        exact .inl (h.sent m x (by simpa [hm] using hx) hsent)
    · rw [List.map_append, List.pairwise_append]
      refine ⟨h.sorted, List.pairwise_singleton _ _, fun m hm m' hm' ↦ ?_⟩
      obtain ⟨w, hw, rfl⟩ := List.mem_map.mp hm
      rw [List.mem_singleton.mp hm']
      exact hafter w hw
  | failed n t ht hlive hready =>
    rw [Option.toList_none, List.append_nil]
    refine h.modify ht chain_settle (fun _ ↦ .inr (.inr rfl)) fun hsent ↦ ?_
    simp at hsent
  | succeeded n t answer ht hphase =>
    rw [Option.toList_none, List.append_nil]
    refine h.modify ht (chain_settle.trans (by rw [chain_commit])) (fun _ ↦ .inr (.inl rfl))
      fun _ ↦ hphase

end log

section display

/-- The entry that is shown is what the pending writes make of the committed one, and so is the
favourite while a write is pending. -/
def EntryShown (record : RecordState) : Prop :=
  ∃ today, record.title.entry.map Prod.fst = (record.painted today).1 ∧
    (record.pending ≠ [] →
      record.title.entry = (record.painted today).1.map (·, (record.painted today).2) ∧
        record.title.favorite = some (record.painted today).2)

def LibraryShown (record : RecordState) : Prop :=
  record.libraryPending ≠ [] → record.title.editorLibrary = some (some record.paintedLibrary)

structure Shown (record : RecordState) : Prop where
  entry : EntryShown record
  library : LibraryShown record

theorem shown_new (title : EditorTitle) : Shown (.new title) :=
  ⟨⟨0, rfl, fun h ↦ absurd rfl h⟩, fun h ↦ absurd rfl h⟩

theorem shown_paint (h : LibraryShown record) : Shown (record.paint today) := by
  refine ⟨⟨today, ?_, fun _ ↦ ⟨rfl, rfl⟩⟩, h⟩
  change ((record.painted today).1.map (·, (record.painted today).2)).map Prod.fst =
    (record.painted today).1
  cases (record.painted today).1 <;> rfl

theorem shown_paintLibrary (h : EntryShown record) : Shown record.paintLibrary := ⟨h, fun _ ↦ rfl⟩

theorem Shown.issue (h : Shown record) : Shown (record.issue viewer today operation) := by
  cases operation with
  | entry patch => exact shown_paint h.library
  | library desired => exact shown_paintLibrary h.entry

theorem Shown.settle (h : Shown record) : Shown (record.settle today n operation succeeded) := by
  cases operation with
  | entry patch => exact shown_paint h.library
  | library desired => exact shown_paintLibrary h.entry

theorem Shown.commit_settle (h : Shown record) (answer : Answer) :
    Shown ((record.commit answer operation).settle today n operation succeeded) := by
  cases operation with
  | entry patch =>
    refine shown_paint ?_
    cases patch <;> exact h.library
  | library desired => exact shown_paintLibrary h.entry

theorem Shown.reseed (h : Shown record) (title : EditorTitle) : Shown (record.reseed title) := by
  unfold RecordState.reseed
  split_ifs with hbusy
  · exact h
  · simp only [busy, Bool.or_eq_true, Bool.not_eq_true', not_or, Bool.not_eq_false,
      List.isEmpty_iff] at hbusy
    obtain ⟨⟨hpending, hlibrary⟩, -⟩ := hbusy
    refine ⟨⟨0, ?_, fun hne ↦ absurd hpending hne⟩, fun hne ↦ absurd hlibrary hne⟩
    unfold painted
    dsimp only
    rw [hpending]
    rfl

theorem Shown.imported (h : Shown record) (reply : Option ℕ) : Shown (record.imported reply) := by
  unfold RecordState.imported
  split_ifs
  · exact ⟨h.entry, h.library⟩
  · exact h

/-- Every change of a record shows what it is left with. -/
theorem Shown.change {sent : Option (String × ℕ × Operation)} (h : Shown record)
    (hc : Change viewer today record record' sent) : Shown record' := by
  cases hc with
  | kept stale => exact ⟨h.entry, h.library⟩
  | reseeded title => exact h.reseed title
  | issued operation => exact h.issue
  | advanced n t phase importing ht hqueued hready hphase himporting => exact ⟨h.entry, h.library⟩
  | imported reply => exact h.imported reply
  | sent n t ht hphase hviewer => exact ⟨h.entry, h.library⟩
  | failed n t ht hlive hready => exact h.settle
  | succeeded n t answer ht hphase => exact h.commit_settle answer

/-- The operations that have not settled, in the order of their issue. -/
def unsettled (record : RecordState) : List Operation :=
  (record.chain.filter fun t ↦ decide (¬t.Settled)).map Task.operation

theorem Ordered.unsettled (h : Ordered record done live) :
    record.unsettled = live.map Task.operation := by
  rw [RecordState.unsettled, h.chain, List.filter_append]
  have hdone : done.filter (fun t ↦ decide (¬t.Settled)) = [] := by
    refine List.filter_eq_nil_iff.mpr fun t ht ↦ ?_
    simpa using h.serial.of_done t ht
  have hlive : live.filter (fun t ↦ decide (¬t.Settled)) = live := by
    refine List.filter_eq_self.mpr fun t ht ↦ ?_
    simpa using h.serial.of_live t ht
  rw [hdone, hlive, List.nil_append]

theorem Ordered.pending_eq (h : Ordered record done live) :
    record.pending.map Prod.snd = record.unsettled.filterMap Operation.entry? := by
  rw [h.pending, map_snd_numbered, h.unsettled, List.filterMap_map]
  rfl

theorem Ordered.libraryPending_eq (h : Ordered record done live) :
    record.libraryPending.map Prod.snd = record.unsettled.filterMap Operation.library? := by
  rw [h.libraryPending, map_snd_numbered, h.unsettled, List.filterMap_map]
  rfl

end display

section imports

/-- Some operation waits for the import only while the title is being imported. -/
def Imports (record : RecordState) : Prop :=
  ∀ t ∈ record.chain, t.phase = .importing → record.importing = true

theorem Imports.congr (h : Imports record) (hchain : record'.chain = record.chain)
    (himporting : record'.importing = record.importing) : Imports record' := by
  intro t ht hphase
  rw [hchain] at ht
  rw [himporting]
  exact h t ht hphase

theorem Imports.modify (h : Imports record) {phase : Phase}
    (hchain : record'.chain = record.chain.modify n fun t ↦ { t with phase })
    (himporting : phase = .importing ∨ record.importing = true → record'.importing = true) :
    Imports record' := by
  intro t ht hphase
  rw [hchain] at ht
  obtain ⟨m, hm⟩ := List.mem_iff_getElem?.mp ht
  rw [List.getElem?_modify] at hm
  obtain ⟨t', ht', rfl⟩ := Option.map_eq_some_iff.mp hm
  split_ifs at hphase with heq
  · exact himporting (.inl hphase)
  · exact himporting (.inr (h t' (List.mem_of_getElem? ht') hphase))

theorem importing_settle :
    (record.settle today n operation succeeded).importing = record.importing := by
  cases operation <;> rfl

theorem importing_commit (answer : Answer) :
    (record.commit answer operation).importing = record.importing := by
  cases operation with
  | entry patch => cases patch <;> rfl
  | library desired => rfl

theorem Imports.change {sent : Option (String × ℕ × Operation)} (h : Imports record)
    (hc : Change viewer today record record' sent) : Imports record' := by
  cases hc with
  | kept stale => exact h.congr rfl rfl
  | reseeded title =>
    unfold reseed
    split_ifs
    · exact h
    · exact h.congr rfl rfl
  | issued operation =>
    have himporting : (record.issue viewer today operation).importing = record.importing := by
      cases operation <;> rfl
    intro t ht hphase
    rw [chain_issue] at ht
    rw [himporting]
    obtain ht | ht := List.mem_append.mp ht
    · exact h t ht hphase
    · rw [List.mem_singleton.mp ht] at hphase
      cases hphase
  | advanced n t phase importing ht hqueued hready hphase himporting =>
    exact h.modify rfl himporting
  | imported reply =>
    unfold RecordState.imported
    split_ifs
    · intro t ht hphase
      obtain ⟨t', -, rfl⟩ := List.mem_map.mp ht
      split_ifs at hphase with hwaiting
      exact absurd hphase hwaiting
    · exact h
  | sent n t ht hphase hviewer => exact h.modify rfl fun hi ↦ hi.resolve_left (by simp)
  | failed n t ht hlive hready =>
    refine h.modify chain_settle fun hi ↦ ?_
    rw [importing_settle]
    exact hi.resolve_left (by simp)
  | succeeded n t answer ht hphase =>
    refine h.modify (chain_settle.trans (by rw [chain_commit])) fun hi ↦ ?_
    rw [importing_settle, importing_commit]
    exact hi.resolve_left (by simp)

end imports

/-- What a record keeps at every step. -/
structure Kept (record : RecordState) (writes : List (String × ℕ × Operation)) : Prop where
  ordered : ∃ done live, Ordered record done live
  logged : Logged record writes
  shown : Shown record
  imports : Imports record

theorem kept_new (title : EditorTitle) : Kept (.new title) [] :=
  ⟨⟨_, _, ordered_new title⟩, logged_new title, shown_new title, fun t ht ↦ by cases ht⟩

theorem Kept.change {writes : List (String × ℕ × Operation)}
    {sent : Option (String × ℕ × Operation)} (h : Kept record writes)
    (hc : Change viewer today record record' sent) : Kept record' (writes ++ sent.toList) := by
  obtain ⟨done, live, hordered⟩ := h.ordered
  exact ⟨hordered.change hc, h.logged.change hordered hc, h.shown.change hc, h.imports.change hc⟩

end RecordState

section store

open RecordState

variable {s : Store} {record : RecordState} {viewer : String} {today : Int} {object : ℕ}
  {f : RecordState → RecordState} {writes : List (String × ℕ × Operation)}

/-- The writes among some requests that are sent for a record. -/
def writesOf (object : ℕ) (log : List Sent) : List (String × ℕ × Operation) :=
  log.filterMap fun
    | .write viewer written task _ operation =>
      if written = object then some (viewer, task, operation) else none
    | _ => none

theorem writesOf_append (log log' : List Sent) :
    writesOf object (log ++ log') = writesOf object log ++ writesOf object log' :=
  List.filterMap_append

/-- What may become of a record, or of none, at a step that sends some writes for it. -/
inductive ObjectStep (viewer : String) (today : Int) :
    Option RecordState → Option RecordState → List (String × ℕ × Operation) → Prop
  | absent : ObjectStep viewer today none none []
  | made (title : EditorTitle) : ObjectStep viewer today none (some (.new title)) []
  | changed {record record' : RecordState} {sent : Option (String × ℕ × Operation)}
      (h : Change viewer today record record' sent) :
      ObjectStep viewer today (some record) (some record') sent.toList

theorem objectStep_refl (x : Option RecordState) : ObjectStep viewer today x x [] := by
  cases x with
  | none => exact .absent
  | some record => exact .changed change_refl

theorem objectStep_modify (hf : ∀ record, Change viewer today record (f record) none)
    (changing : ℕ) :
    ObjectStep viewer today s.objects[object]? (s.modify changing f).objects[object]? [] := by
  rw [Store.modify, List.getElem?_modify]
  cases s.objects[object]? with
  | none => exact .absent
  | some record =>
    by_cases h : changing = object
    · simpa [h] using ObjectStep.changed (hf record)
    · have hsame : Change viewer today record record none := change_refl
      simpa [h] using ObjectStep.changed hsame

theorem objectStep_seed (title : EditorTitle) :
    ObjectStep viewer today s.objects[object]? (s.seed title).objects[object]? [] := by
  unfold Store.seed
  cases s.record title with
  | some seeded => exact objectStep_modify (fun record ↦ .reseeded title) seeded
  | none =>
    dsimp only
    rw [List.getElem?_append]
    split_ifs with hlt
    · exact objectStep_refl _
    · rw [List.getElem?_eq_none (Nat.le_of_not_lt hlt), List.getElem?_singleton]
      split_ifs
      · exact .made title
      · exact .absent

theorem objectStep_acceptSaved (id : ℕ) (saved : Option (Entry × Bool)) :
    ObjectStep viewer today s.objects[object]? (s.acceptSaved id saved).objects[object]? [] := by
  unfold Store.acceptSaved
  cases (s.withId id).bind (s.objects[·]?) with
  | none => exact objectStep_refl _
  | some record =>
    dsimp only
    split_ifs
    · exact objectStep_seed _
    · exact objectStep_refl _

theorem objectStep_fetched (fetch : ℕ) (reply : Option EditorTitle) :
    ObjectStep viewer today s.objects[object]? (s.fetched fetch reply).objects[object]? [] := by
  unfold Store.fetched
  split
  · dsimp only
    cases reply with
    | none => exact objectStep_refl _
    | some title =>
      dsimp only
      split_ifs
      · exact objectStep_seed (s := { s with
          reads := s.reads.filter fun read ↦ decide (read.2 ≠ fetch)
          fetches := s.fetches.modify fetch fun read ↦ (read.1, read.2.1, true) }) title
      · exact objectStep_refl _
  · exact objectStep_refl _

/-- Every step changes each record in one of the ways of a record, and sends for it what that says. -/
theorem objectStep_step (event : Event) :
    ObjectStep s.viewer today s.objects[object]? (s.step today event).1.objects[object]?
      (writesOf object (s.step today event).2) := by
  cases event with
  | scope viewer =>
    unfold Store.step Store.scope
    dsimp only
    split_ifs
    · exact objectStep_refl _
    · exact objectStep_refl _
  | seed title => exact objectStep_seed title
  | acceptSaved id saved => exact objectStep_acceptSaved id saved
  | invalidate id =>
    unfold Store.step Store.invalidate
    dsimp only
    cases s.withId id with
    | none => exact objectStep_refl _
    | some kept => exact objectStep_modify (fun record ↦ .kept true) kept
  | load id =>
    unfold Store.step Store.load
    dsimp only
    split_ifs
    · exact objectStep_refl _
    · exact objectStep_refl _
    · exact objectStep_refl _
  | fetched fetch reply => exact objectStep_fetched fetch reply
  | issue title operation =>
    unfold Store.step
    dsimp only
    cases s.record title with
    | none => exact objectStep_refl _
    | some kept => exact objectStep_modify (fun record ↦ .issued operation) kept
  | start started task =>
    have hnone : writesOf object (s.step today (.start started task)).2 = [] := by
      unfold Store.step
      dsimp only
      split_ifs <;> rfl
    rw [hnone]
    exact objectStep_modify (fun record ↦ change_start) started
  | imported importing reply => exact objectStep_modify (fun record ↦ .imported reply) importing
  | resume resumed task =>
    unfold Store.step
    dsimp only
    rw [Store.modify, List.getElem?_modify]
    by_cases h : resumed = object
    · subst h
      cases hrecord : s.objects[resumed]? with
      | none => exact .absent
      | some record =>
        have hresumed : Change s.viewer today record (record.resume s.viewer today task).1
            ((record.resume s.viewer today task).2.bind fun _ ↦
              (record.chain[task]?).map fun t ↦ (s.viewer, task, t.operation)) := change_resume
        have hchange := ObjectStep.changed hresumed
        cases hresume : (record.resume s.viewer today task).2 with
        | none =>
          rw [hresume] at hchange
          simpa [writesOf, hresume] using hchange
        | some id =>
          rw [hresume] at hchange
          cases ht : record.chain[task]? with
          | none =>
            rw [ht] at hchange
            simpa [writesOf, hresume, ht] using hchange
          | some t =>
            rw [ht] at hchange
            simpa [writesOf, hresume, ht] using hchange
    · have hnone : writesOf object ((s.objects[resumed]?.bind fun record ↦
          (record.resume s.viewer today task).2.bind fun id ↦ (record.chain[task]?).map fun t ↦
            Sent.write s.viewer resumed task id t.operation).toList) = [] := by
        cases hsent : s.objects[resumed]?.bind fun record ↦
            (record.resume s.viewer today task).2.bind fun id ↦ (record.chain[task]?).map fun t ↦
              Sent.write s.viewer resumed task id t.operation with
        | none => rfl
        | some sent =>
          obtain ⟨record, -, hsent⟩ := Option.bind_eq_some_iff.mp hsent
          obtain ⟨id, -, hsent⟩ := Option.bind_eq_some_iff.mp hsent
          obtain ⟨t, -, rfl⟩ := Option.map_eq_some_iff.mp hsent
          simp [writesOf, h]
      rw [hnone]
      simpa [h] using objectStep_refl s.objects[object]?
  | answered answering task reply =>
    exact objectStep_modify (fun record ↦ change_answered reply) answering

/-- What is kept of a record, or of none, over a run. -/
def KeptObject (x : Option RecordState) (writes : List (String × ℕ × Operation)) : Prop :=
  match x with
  | some record => Kept record writes
  | none => writes = []

theorem KeptObject.step {x x' : Option RecordState} {sent : List (String × ℕ × Operation)}
    (h : KeptObject x writes) (hs : ObjectStep viewer today x x' sent) :
    KeptObject x' (writes ++ sent) := by
  cases hs with
  | absent => exact (List.append_nil writes).trans h
  | made title =>
    rw [show writes = [] from h]
    exact kept_new title
  | changed hc => exact Kept.change h hc

theorem run_append (events : List (Int × Event)) (event : Int × Event) :
    run viewer (events ++ [event]) =
      (((run viewer events).1.step event.1 event.2).1,
        (run viewer events).2 ++ ((run viewer events).1.step event.1 event.2).2) := by
  rw [run, List.foldl_append]
  rfl

theorem kept_run (viewer : String) (events : List (Int × Event)) (object : ℕ) :
    KeptObject (run viewer events).1.objects[object]? (writesOf object (run viewer events).2) := by
  induction events using List.reverseRecOn with
  | nil => rfl
  | append_singleton events event ih =>
    rw [run_append, writesOf_append]
    exact ih.step (objectStep_step event.2)

/-- Whatever happens in whatever order, the writes of a record are sent in the order of their issue,
each at most once, and only while the viewer who issued it is signed in; what succeeded was sent,
and at most one task is under way. -/
theorem sent_in_order (viewer : String) (events : List (Int × Event)) (object : ℕ) :
    ((writesOf object (run viewer events).2).map fun w ↦ w.2.1).Pairwise (· < ·) ∧
      (∀ w ∈ writesOf object (run viewer events).2, ∃ (record : RecordState) (t : Task),
        (run viewer events).1.objects[object]? = some record ∧ record.chain[w.2.1]? = some t ∧
          t.viewer = w.1 ∧ t.operation = w.2.2) ∧
      ∀ record : RecordState, (run viewer events).1.objects[object]? = some record →
        (∀ (n : ℕ) (t : Task), record.chain[n]? = some t → t.phase = .settled true →
          n ∈ (writesOf object (run viewer events).2).map fun w ↦ w.2.1) ∧
        ∀ (m n : ℕ) (t t' : Task), record.chain[m]? = some t → record.chain[n]? = some t' →
          ¬t.Queued ∧ ¬t.Settled → ¬t'.Queued ∧ ¬t'.Settled → m = n := by
  have h := kept_run viewer events object
  cases hrecord : (run viewer events).1.objects[object]? with
  | none =>
    rw [hrecord] at h
    rw [show writesOf object (run viewer events).2 = [] from h]
    exact ⟨List.Pairwise.nil, fun w hw ↦ (by cases hw), fun record hnone ↦ (by cases hnone)⟩
  | some record =>
    rw [hrecord] at h
    obtain ⟨⟨done, live, hordered⟩, hlogged, -⟩ := h
    refine ⟨hlogged.sorted, fun w hw ↦ ?_, fun record' heq ↦ ?_⟩
    · obtain ⟨t, ht, hviewer, hoperation, -⟩ := hlogged.issued w hw
      exact ⟨record, t, rfl, ht, hviewer, hoperation⟩
    · obtain rfl := Option.some.inj heq
      refine ⟨fun n t ht hphase ↦ hlogged.sent n t ht (.inr hphase), ?_⟩
      intro m n t t' ht ht' hstarted hstarted'
      rw [hordered.chain] at ht ht'
      exact hordered.serial.first_unique ht ht' hstarted hstarted'

/-- Whatever happens in whatever order, a record shows the entry that its operations which have not
settled make, in the order of their issue, of the committed one, and while there are some also
their favourite; and it shows the library state that was asked for last. -/
theorem shown_is_painted {events : List (Int × Event)}
    (hrecord : (run viewer events).1.objects[object]? = some record) :
    (∃ today, ∃ shown, shown = paint record.title.info today
        (record.unsettled.filterMap Operation.entry?)
        (record.committed.map Prod.fst, record.favoriteCommitted) ∧
      record.title.entry.map Prod.fst = shown.1 ∧
      (record.unsettled.filterMap Operation.entry? ≠ [] →
        record.title.entry = shown.1.map (·, shown.2) ∧ record.title.favorite = some shown.2)) ∧
    ∀ desired, (record.unsettled.filterMap Operation.library?).getLast? = some desired →
      record.title.editorLibrary.join.map EditorLibrary.desired = some desired := by
  have h := kept_run viewer events object
  rw [hrecord] at h
  obtain ⟨⟨done, live, hordered⟩, -, ⟨hentry, hlibrary⟩, -⟩ := h
  constructor
  · obtain ⟨today, hshown, hpending⟩ := hentry
    refine ⟨today, record.painted today, ?_, hshown, fun hne ↦ hpending fun hnil ↦ hne ?_⟩
    · rw [painted, hordered.pending_eq]
    · rw [← hordered.pending_eq, hnil]
      rfl
  · intro desired hlast
    rw [← hordered.libraryPending_eq, List.getLast?_map] at hlast
    have hne : record.libraryPending ≠ [] := by
      rintro hnil
      rw [hnil] at hlast
      cases hlast
    rw [hlibrary hne, Option.join_some, Option.map_some, paintedLibrary, hlast]
    rfl

/-- Two writes of a film and a change of the library, of which the first write is sent. -/
def film : EditorTitle where
  id := some 5
  tmdbId := none
  type := .movie
  seasons := none
  progressPositions := none
  entry := none
  favorite := some false
  editorLibrary := none

def watchedTwice : List (Int × Event) :=
  [(0, .seed film), (0, .issue film (.entry (some { status := some (some .watching) }))),
    (0, .issue film (.entry (some { status := some (some .completed) }))),
    (0, .issue film (.library true)), (0, .start 0 1), (0, .start 0 0), (0, .resume 0 0)]

def watchedRecord : RecordState := ((run "ann" watchedTwice).1.objects[0]?).getD (.new film)

theorem shown_is_painted_film :
    (∃ today, ∃ shown, shown = paint watchedRecord.title.info today
        (watchedRecord.unsettled.filterMap Operation.entry?)
        (watchedRecord.committed.map Prod.fst, watchedRecord.favoriteCommitted) ∧
      watchedRecord.title.entry.map Prod.fst = shown.1 ∧
      (watchedRecord.unsettled.filterMap Operation.entry? ≠ [] →
        watchedRecord.title.entry = shown.1.map (·, shown.2) ∧
          watchedRecord.title.favorite = some shown.2)) ∧
    ∀ desired, (watchedRecord.unsettled.filterMap Operation.library?).getLast? = some desired →
      watchedRecord.title.editorLibrary.join.map EditorLibrary.desired = some desired :=
  @shown_is_painted watchedRecord "ann" 0 watchedTwice (by rfl)

end store

section progress

open RecordState

variable {s : Store} {record : RecordState} {done rest live chain : List Task} {t : Task}
  {viewer : String} {today : Int} {object n : ℕ} {writes : List (String × ℕ × Operation)}

/-- How many steps an operation is from its end. -/
def Phase.left : Phase → ℕ
  | .queued => 4
  | .importing => 3
  | .resolved _ => 2
  | .requesting => 1
  | .settled _ => 0

def left : List Task → ℕ
  | [] => 0
  | t :: rest => t.phase.left + left rest

theorem left_append : left (done ++ live) = left done + left live := by
  induction done with
  | nil => exact (Nat.zero_add _).symm
  | cons t done ih =>
    rw [List.cons_append, left, left, ih, Nat.add_assoc]

theorem left_eq_zero : left chain = 0 ↔ ∀ t ∈ chain, t.Settled := by
  induction chain with
  | nil => simp [left]
  | cons t chain ih =>
    rw [left, Nat.add_eq_zero_iff, ih, List.forall_mem_cons]
    refine and_congr_left fun _ ↦ ?_
    unfold Task.Settled
    cases t.phase with
    | queued | importing | resolved | requesting => simp [Phase.left]
    | settled succeeded => cases succeeded <;> simp [Phase.left]

theorem left_le (chain : List Task) :
    left chain ≤ 4 * (chain.filter fun t ↦ decide (¬t.Settled)).length := by
  induction chain with
  | nil => exact le_rfl
  | cons t chain ih =>
    rw [left, List.filter_cons]
    split_ifs with hlive
    · have hphase : t.phase.left ≤ 4 := by
        cases t.phase <;> simp [Phase.left]
      rw [List.length_cons]
      omega
    · have hsettled : left [t] = 0 := by
        refine left_eq_zero.mpr fun t' ht' ↦ ?_
        rw [List.mem_singleton.mp ht']
        simpa using hlive
      rw [left] at hsettled
      omega

theorem left_modify {phase : Phase} (hchain : chain = (done ++ t :: rest).modify done.length
    fun t ↦ { t with phase }) (hlt : phase.left < t.phase.left) :
    left chain < left (done ++ t :: rest) := by
  rw [hchain, modify_length, left_append, left_append, left, left]
  exact Nat.add_lt_add_left (Nat.add_lt_add_right hlt _) _

/-- A task that starts comes to a later phase. -/
theorem chain_start (viewer : String) (today : Int) (ht : record.chain[n]? = some t)
    (hqueued : t.Queued) (hready : Ready Task.Settled record.chain n) : ∃ phase : Phase, phase.left < 4 ∧
      (record.start viewer today n).1.chain = record.chain.modify n fun t ↦ { t with phase } := by
  unfold start
  rw [ht]
  dsimp only
  rw [if_pos ⟨hqueued, hready⟩]
  split_ifs
  · exact ⟨.settled false, by decide, chain_settle⟩
  · cases record.title.id.filter (· ≠ 0) with
    | some id => exact ⟨.resolved (some id), by simp [Phase.left], rfl⟩
    | none => exact ⟨.importing, by decide, rfl⟩

theorem chain_resume {id : Option ℕ} (viewer : String) (today : Int)
    (ht : record.chain[n]? = some t) (hphase : t.phase = .resolved id) : ∃ phase : Phase, phase.left < 2 ∧
      (record.resume viewer today n).1.chain = record.chain.modify n fun t ↦ { t with phase } := by
  unfold resume
  rw [ht]
  dsimp only
  rw [hphase]
  cases id with
  | none => exact ⟨.settled false, by decide, chain_settle⟩
  | some id =>
    dsimp only
    split_ifs
    · exact ⟨.settled false, by decide, chain_settle⟩
    · exact ⟨.requesting, by decide, rfl⟩

theorem chain_answered (today : Int) (ht : record.chain[n]? = some t)
    (hphase : t.phase = .requesting) (reply : Option Answer) : ∃ phase : Phase, phase.left < 1 ∧
      (record.answered today n reply).chain = record.chain.modify n fun t ↦ { t with phase } := by
  unfold answered
  rw [ht]
  dsimp only
  rw [if_pos hphase]
  cases reply with
  | some answer => exact ⟨.settled true, by decide, chain_settle.trans (by rw [chain_commit])⟩
  | none => exact ⟨.settled false, by decide, chain_settle⟩

theorem chain_imported (hordered : Ordered record done (t :: rest)) (hphase : t.phase = .importing)
    (himporting : record.importing = true) (reply : Option ℕ) :
    (record.imported reply).chain =
      record.chain.modify done.length fun t ↦ { t with phase := .resolved reply } := by
  have hsame (l : List Task) (hl : ∀ t ∈ l, t.phase ≠ .importing) :
      l.map (answerImport reply) = l := by
    rw [List.map_congr_left fun t ht ↦ answerImport_of_ne reply (hl t ht), List.map_id']
  have hdone : ∀ t ∈ done, t.phase ≠ .importing := by
    intro t ht hphase
    obtain hsettled | hsettled := hordered.serial.of_done t ht
    · rw [hsettled] at hphase
      cases hphase
    · rw [hsettled] at hphase
      cases hphase
  have hrest : ∀ t ∈ rest, t.phase ≠ .importing := by
    intro t ht hphase
    rw [show t.phase = .queued from hordered.serial.of_tail t ht] at hphase
    cases hphase
  unfold RecordState.imported
  rw [if_pos himporting]
  change record.chain.map (answerImport reply) = _
  rw [hordered.chain, modify_length, List.map_append, List.map_cons, hsame done hdone,
    hsame rest hrest, answerImport, if_pos hphase]

/-- While some operation of a record has not settled, the first such one comes nearer to its end,
whatever is answered. -/
theorem left_goOn (reply : Store.Reply) (hrecord : s.objects[object]? = some record)
    (hordered : Ordered record done live) (himports : Imports record) (hlive : live ≠ []) :
    ∃ record', (s.goOn object reply).objects[object]? = some record' ∧
      left record'.chain < left record.chain := by
  obtain ⟨t, rest, rfl⟩ := List.exists_cons_of_ne_nil hlive
  have ht : record.chain[done.length]? = some t := by
    rw [hordered.chain]
    simp
  have hfirst : s.objects[object]?.bind RecordState.first = some (done.length, t.phase) := by
    have hindex := hordered.serial.findIdx?_live
    rw [if_neg hlive, ← hordered.chain] at hindex
    rw [hrecord, Option.bind_some, RecordState.first, hindex, Option.bind_some, ht, Option.map_some]
  have hmodify (f : RecordState → RecordState) :
      (s.modify object f).objects[object]? = some (f record) := by
    rw [Store.modify, List.getElem?_modify, hrecord]
    simp
  have hless {record' : RecordState} {phase : Phase} {k : ℕ} (hk : t.phase.left = k)
      (hlt : phase.left < k)
      (hchain : record'.chain = record.chain.modify done.length fun t ↦ { t with phase }) :
      left record'.chain < left record.chain := by
    rw [hordered.chain] at hchain ⊢
    exact left_modify hchain (hk ▸ hlt)
  unfold Store.goOn
  rw [hfirst]
  cases hphase : t.phase with
  | queued =>
    have hready : Ready Task.Settled record.chain done.length := by
      rw [hordered.chain]
      exact hordered.serial.ready
    obtain ⟨phase, hlt, hchain⟩ := chain_start s.viewer reply.today ht hphase hready
    exact ⟨_, hmodify _, hless (by rw [hphase]; rfl) hlt hchain⟩
  | importing =>
    have himporting := himports t (List.mem_of_getElem? ht) hphase
    exact ⟨_, hmodify _, hless (k := 3) (by rw [hphase]; rfl) (by simp [Phase.left])
      (chain_imported hordered hphase himporting reply.imported)⟩
  | resolved id =>
    obtain ⟨phase, hlt, hchain⟩ := chain_resume s.viewer reply.today ht hphase
    exact ⟨_, hmodify _, hless (by rw [hphase]; rfl) hlt hchain⟩
  | requesting =>
    obtain ⟨phase, hlt, hchain⟩ := chain_answered reply.today ht hphase reply.answer
    exact ⟨_, hmodify _, hless (by rw [hphase]; rfl) hlt hchain⟩
  | settled succeeded =>
    refine absurd ?_ (hordered.serial.of_live t List.mem_cons_self)
    cases succeeded
    · exact .inr hphase
    · exact .inl hphase

theorem keptObject_goOn (reply : Store.Reply) (h : KeptObject s.objects[object]? writes) :
    ∃ writes', KeptObject (s.goOn object reply).objects[object]? writes' := by
  unfold Store.goOn
  split
  · exact ⟨writes, h⟩
  · exact ⟨_, h.step (objectStep_step _)⟩
  · exact ⟨_, h.step (objectStep_step _)⟩
  · exact ⟨_, h.step (objectStep_step _)⟩
  · exact ⟨_, h.step (objectStep_step _)⟩
  · exact ⟨_, h.step (objectStep_step _)⟩

theorem goOn_of_settled (reply : Store.Reply) (hrecord : s.objects[object]? = some record)
    (hordered : Ordered record done []) : s.goOn object reply = s := by
  have hindex := hordered.serial.findIdx?_live
  rw [if_pos rfl, ← hordered.chain] at hindex
  unfold Store.goOn
  rw [hrecord, Option.bind_some, RecordState.first, hindex]
  rfl

theorem settles (replies : List Store.Reply) (hrecord : s.objects[object]? = some record)
    (h : KeptObject s.objects[object]? writes) (hlength : left record.chain ≤ replies.length) :
    ∃ record' done, (replies.foldl (·.goOn object) s).objects[object]? = some record' ∧
      Ordered record' done [] ∧ Shown record' := by
  induction replies generalizing s record writes with
  | nil =>
    rw [hrecord] at h
    obtain ⟨⟨done, live, hordered⟩, -, hshown, -⟩ := h
    obtain rfl : live = [] := by
      refine List.eq_nil_iff_forall_not_mem.mpr fun t ht ↦ hordered.serial.of_live t ht ?_
      refine left_eq_zero.mp (Nat.le_zero.mp hlength) t ?_
      rw [hordered.chain]
      exact List.mem_append_right _ ht
    exact ⟨record, done, hrecord, hordered, hshown⟩
  | cons reply rest ih =>
    obtain ⟨writes', hafter⟩ := keptObject_goOn reply h
    rw [hrecord] at h
    obtain ⟨⟨done, live, hordered⟩, -, -, himports⟩ := h
    rw [List.foldl_cons]
    by_cases hlive : live = []
    · subst hlive
      have hsame := goOn_of_settled reply hrecord hordered
      have hzero : left record.chain = 0 := by
        rw [left_eq_zero, hordered.chain, List.append_nil]
        exact hordered.serial.of_done
      rw [hsame] at hafter ⊢
      exact ih hrecord hafter (by omega)
    · obtain ⟨record', hrecord', hlt⟩ := left_goOn reply hrecord hordered himports hlive
      rw [List.length_cons] at hlength
      exact ih hrecord' hafter (by omega)

/-- No operation waits for ever: whatever happened before, and whatever is answered, all operations of
a record have settled after at most four steps for each, and then it shows the committed entry. -/
theorem all_settle {events : List (Int × Event)} (replies : List Store.Reply)
    (hrecord : (run viewer events).1.objects[object]? = some record)
    (hlength : 4 * record.unsettled.length ≤ replies.length) :
    ∃ record', (replies.foldl (·.goOn object) (run viewer events).1).objects[object]? =
        some record' ∧ record'.unsettled = [] ∧
      record'.title.entry.map Prod.fst = record'.committed.map Prod.fst := by
  have hleft : left record.chain ≤ replies.length := by
    rw [unsettled, List.length_map] at hlength
    exact (left_le record.chain).trans hlength
  obtain ⟨record', done, hafter, hordered, ⟨today, hshown, -⟩, -⟩ :=
    settles replies hrecord (kept_run viewer events object) hleft
  refine ⟨record', hafter, hordered.unsettled, hshown.trans ?_⟩
  rw [painted, hordered.pending]
  rfl

theorem all_settle_film : ∃ record',
    ((List.replicate 12 ⟨0, none, none⟩).foldl (·.goOn 0) (run "ann" watchedTwice).1).objects[0]? =
        some record' ∧ record'.unsettled = [] ∧
      record'.title.entry.map Prod.fst = record'.committed.map Prod.fst :=
  @all_settle watchedRecord "ann" 0 watchedTwice (List.replicate 12 ⟨0, none, none⟩) (by rfl)
    (by decide)

end progress

namespace Sent

def viewer : Sent → String
  | .editor viewer _ | .catalog viewer _ | .write viewer _ _ _ _ => viewer

/-- The record that a request is for. -/
def object : Sent → Option ℕ
  | .editor _ _ => none
  | .catalog _ object | .write _ object _ _ _ => some object

end Sent

section viewers

open RecordState

variable {s : Store} {today : Int}

/-- What a step does to the records of the viewer, and for which it sends requests. -/
structure Stays (s s' : Store) (out : List Sent) : Prop where
  length : s.objects.length ≤ s'.objects.length
  records : s'.records = [] ∨ s'.viewer = s.viewer ∧ ∀ kept ∈ s'.records,
    kept ∈ s.records ∨ kept.2 = s.objects.length ∧ kept.2 < s'.objects.length
  out : ∀ sent ∈ out, sent.viewer = s.viewer ∧
    ∀ object, sent.object = some object → object < s.objects.length

theorem Stays.of_same {s' : Store} (hlength : s'.objects.length = s.objects.length)
    (hrecords : s'.records = s.records) (hviewer : s'.viewer = s.viewer) : Stays s s' [] :=
  ⟨hlength.ge, .inr ⟨hviewer, fun kept hkept ↦ .inl (hrecords ▸ hkept)⟩,
    fun sent hsent ↦ (by cases hsent)⟩

theorem stays_modify (object : ℕ) (f : RecordState → RecordState) : Stays s (s.modify object f) [] :=
  .of_same (List.length_modify ..) rfl rfl

theorem stays_seed (title : EditorTitle) : Stays s (s.seed title) [] := by
  unfold Store.seed
  cases s.record title with
  | some object => exact stays_modify object _
  | none =>
    refine ⟨by simp, .inr ⟨rfl, fun kept hkept ↦ ?_⟩, fun sent hsent ↦ by cases hsent⟩
    obtain hkept | hkept := List.mem_append.mp hkept
    · exact .inl hkept
    · obtain rfl := List.mem_singleton.mp hkept
      exact .inr ⟨rfl, by simp⟩

theorem stays_step (event : Event) : Stays s (s.step today event).1 (s.step today event).2 := by
  cases event with
  | scope viewer =>
    unfold Store.step Store.scope
    dsimp only
    split_ifs
    · exact .of_same rfl rfl rfl
    · exact ⟨le_rfl, .inl rfl, fun sent hsent ↦ by cases hsent⟩
  | seed title => exact stays_seed title
  | acceptSaved id saved =>
    unfold Store.step Store.acceptSaved
    dsimp only
    cases (s.withId id).bind (s.objects[·]?) with
    | none => exact .of_same rfl rfl rfl
    | some record =>
      dsimp only
      split_ifs
      · exact stays_seed _
      · exact .of_same rfl rfl rfl
  | invalidate id =>
    unfold Store.step Store.invalidate
    dsimp only
    cases s.withId id with
    | none => exact .of_same rfl rfl rfl
    | some object => exact stays_modify object _
  | load id =>
    unfold Store.step Store.load
    dsimp only
    split_ifs
    · exact .of_same rfl rfl rfl
    · exact .of_same rfl rfl rfl
    · refine ⟨le_rfl, .inr ⟨rfl, fun kept hkept ↦ .inl hkept⟩, fun sent hsent ↦ ?_⟩
      obtain rfl := List.mem_singleton.mp hsent
      exact ⟨rfl, fun object hobject ↦ by cases hobject⟩
  | fetched fetch reply =>
    unfold Store.step Store.fetched
    dsimp only
    split
    · cases reply with
      | none => exact .of_same rfl rfl rfl
      | some title =>
        dsimp only
        split_ifs
        · obtain ⟨hlength, hrecords, hout⟩ := stays_seed (s := { s with
            reads := s.reads.filter fun read ↦ decide (read.2 ≠ fetch)
            fetches := s.fetches.modify fetch fun read ↦ (read.1, read.2.1, true) }) title
          exact ⟨hlength, hrecords, hout⟩
        · exact .of_same rfl rfl rfl
    · exact .of_same rfl rfl rfl
  | issue title operation =>
    unfold Store.step
    dsimp only
    cases s.record title with
    | none => exact .of_same rfl rfl rfl
    | some object => exact stays_modify object _
  | start object task =>
    obtain ⟨hlength, hrecords, -⟩ := stays_modify (s := s) object
      fun record ↦ (record.start s.viewer today task).1
    refine ⟨hlength, hrecords, fun sent hsent ↦ ?_⟩
    unfold Store.step at hsent
    dsimp only at hsent
    split_ifs at hsent with hany
    · obtain rfl := List.mem_singleton.mp hsent
      refine ⟨rfl, fun object' hobject ↦ ?_⟩
      obtain rfl := Option.some.inj hobject
      cases hrecord : s.objects[object]? with
      | none =>
        rw [hrecord] at hany
        cases hany
      | some record => exact (List.getElem?_eq_some_iff.mp hrecord).1
    · cases hsent
  | imported object reply => exact stays_modify object _
  | resume object task =>
    obtain ⟨hlength, hrecords, -⟩ := stays_modify (s := s) object
      fun record ↦ (record.resume s.viewer today task).1
    refine ⟨hlength, hrecords, fun sent hsent ↦ ?_⟩
    obtain ⟨record, hrecord, hsent⟩ := Option.bind_eq_some_iff.mp (Option.mem_toList.mp hsent)
    obtain ⟨id, -, hsent⟩ := Option.bind_eq_some_iff.mp hsent
    obtain ⟨t, -, rfl⟩ := Option.map_eq_some_iff.mp hsent
    refine ⟨rfl, fun object' hobject ↦ ?_⟩
    obtain rfl := Option.some.inj hobject
    exact (List.getElem?_eq_some_iff.mp hrecord).1
  | answered object task reply => exact stays_modify object _

/-- The records of the viewer have only had requests that were sent as that viewer. -/
structure Apart (s : Store) (log : List Sent) : Prop where
  sent : ∀ sent ∈ log, ∀ object, sent.object = some object → object < s.objects.length
  kept : ∀ kept ∈ s.records, kept.2 < s.objects.length
  viewer : ∀ kept ∈ s.records, ∀ sent ∈ log, sent.object = some kept.2 → sent.viewer = s.viewer

theorem Apart.step {s' : Store} {log out : List Sent} (h : Apart s log) (hs : Stays s s' out) :
    Apart s' (log ++ out) := by
  refine ⟨fun sent hsent object hobject ↦ ?_, fun kept hkept ↦ ?_,
    fun kept hkept sent hsent hobject ↦ ?_⟩
  · obtain hsent | hsent := List.mem_append.mp hsent
    · exact (h.sent sent hsent object hobject).trans_le hs.length
    · exact ((hs.out sent hsent).2 object hobject).trans_le hs.length
  · obtain hnone | ⟨-, hrecords⟩ := hs.records
    · rw [hnone] at hkept
      cases hkept
    · obtain hold | ⟨-, hnew⟩ := hrecords kept hkept
      · exact (h.kept kept hold).trans_le hs.length
      · exact hnew
  · obtain hnone | ⟨hviewer, hrecords⟩ := hs.records
    · rw [hnone] at hkept
      cases hkept
    · rw [hviewer]
      obtain hsent | hsent := List.mem_append.mp hsent
      · obtain hold | ⟨hnew, -⟩ := hrecords kept hkept
        · exact h.viewer kept hold sent hsent hobject
        · have hlt := h.sent sent hsent kept.2 hobject
          omega
      · exact (hs.out sent hsent).1

theorem apart_run (viewer : String) (events : List (Int × Event)) :
    Apart (run viewer events).1 (run viewer events).2 := by
  induction events using List.reverseRecOn with
  | nil =>
    exact ⟨fun sent hsent ↦ (by cases hsent), fun kept hkept ↦ (by cases hkept),
      fun kept hkept ↦ (by cases hkept)⟩
  | append_singleton events event ih =>
    rw [run_append]
    exact ih.step (stays_step event.2)

/-- Whatever happens in whatever order, also when the viewer changes and changes back: every request
for a record that the store shows was sent as the viewer it shows it to, and what was read as
another viewer changes no record. -/
theorem viewers_stay_apart (viewer : String) (events : List (Int × Event)) :
    (∀ kept ∈ (run viewer events).1.records, ∀ sent ∈ (run viewer events).2,
      sent.object = some kept.2 → sent.viewer = (run viewer events).1.viewer) ∧
    ∀ fetch id reader reply, (run viewer events).1.fetches[fetch]? = some (id, reader, false) →
      reader ≠ (run viewer events).1.viewer →
        ((run viewer events).1.fetched fetch reply).objects = (run viewer events).1.objects ∧
          ((run viewer events).1.fetched fetch reply).records = (run viewer events).1.records := by
  refine ⟨(apart_run viewer events).viewer, fun fetch id reader reply hfetch hreader ↦ ?_⟩
  unfold Store.fetched
  rw [hfetch]
  cases reply with
  | none => exact ⟨rfl, rfl⟩
  | some title =>
    dsimp only
    rw [if_neg hreader]
    exact ⟨rfl, rfl⟩

end viewers

end AnyList.Editor.EditorStore
