import Mathlib.Data.List.TakeWhile
import P4Cases.FlowCounter.Commands

/-! Every schedule of the command loop gives the same answers. -/
namespace P4Cases.FlowCounter
open Wire Control
variable {E : Type} {isPrint : ℕ → Bool} {lines : List (List Byte)} {ending : Option E}
  {c c' : Commands E} {err : Option E}

/-! What is expected of the loop. -/

/-- The responses to lines, in order. -/
def responses (isPrint : ℕ → Bool) (lines : List (List Byte)) : List (List Byte) :=
  lines.map fun text => response isPrint (trimSpace text)

def Stops (text : List Byte) : Prop := isStop (trimSpace text) = true

instance (text : List Byte) : Decidable (Stops text) := inferInstanceAs (Decidable (_ = _))

/-- The lines before the first blank or `quit` line. -/
def answered (lines : List (List Byte)) : List (List Byte) := lines.takeWhile fun t => ¬ Stops t

/-- What the loop returns when nothing interrupts it: nil for a blank line, `quit` and the end
of the stream, else the error of the stream. -/
def outcome (ending : Option E) (lines : List (List Byte)) : Option E :=
  if ∃ text ∈ lines, Stops text then none else ending

/-- Lines that do not end the loop. -/
def Plain (lines : List (List Byte)) : Prop := ∀ text ∈ lines, ¬ Stops text

theorem answered_plain (h : Plain lines) : answered lines = lines :=
  List.takeWhile_eq_self_iff.mpr fun text ht => decide_eq_true (h text ht)

theorem answered_stop {before rest : List (List Byte)} {text : List Byte} (h : Plain before)
    (ht : Stops text) : answered (before ++ text :: rest) = before := by
  have hall := answered_plain h
  unfold answered at hall ⊢
  rw [List.takeWhile_append, if_pos (by rw [hall]), List.takeWhile_cons,
    if_neg (by simp [ht]), List.append_nil]

theorem prefix_answered (h : Plain lines) (rest : List (List Byte)) :
    lines <+: answered (lines ++ rest) := by
  have hall := answered_plain h
  unfold answered at hall ⊢
  rw [List.takeWhile_append, if_pos (by rw [hall])]
  exact List.prefix_append lines _

theorem outcome_plain (h : Plain lines) : outcome ending lines = ending :=
  if_neg fun ⟨text, ht, hs⟩ => h text ht hs

theorem outcome_stop {text : List Byte} (h : text ∈ lines) (ht : Stops text) :
    outcome ending lines = none := if_pos ⟨text, h, ht⟩

/-! The invariant. -/

/-- The lines handed over come first, then the one offered, then the unread ones. A goroutine
that has left its loop while the main loop runs and nobody interrupts has read everything. -/
def Handed (lines : List (List Byte)) (ending : Option E) (c : Commands E) : Prop :=
  match c.scanner with
  | .scanning => lines = c.sent ++ c.lines
  | .sending line => lines = c.sent ++ line :: c.lines
  | .failing err => c.sent <+: lines ∧
      (c.loop.result = none → c.sent = lines ∧ ending = some err)
  | .closing | .done => c.sent <+: lines ∧
      (c.loop.result = none → c.interrupted = false → c.sent = lines ∧ ending = none)

/-- Why the loop returned `err`, after these lines and with these responses. -/
inductive Ended (isPrint : ℕ → Bool) (lines : List (List Byte)) (ending : Option E)
    (sent written : List (List Byte)) (interrupted : Bool) (writeError err : Option E) : Prop where
  | writeFails (e : E) (before : List (List Byte)) (text : List Byte) :
      writeError = some e → err = some e → sent = before ++ [text] → Plain sent →
      written = responses isPrint before →
      Ended isPrint lines ending sent written interrupted writeError err
  | stop (before : List (List Byte)) (text : List Byte) :
      writeError = none → err = none → sent = before ++ [text] → Plain before → Stops text →
      written = responses isPrint before →
      Ended isPrint lines ending sent written interrupted writeError err
  | stream : writeError = none → err = ending → sent = lines → Plain lines →
      written = responses isPrint lines →
      Ended isPrint lines ending sent written interrupted writeError err
  | interrupted : writeError = none → interrupted = true → err = none → Plain sent →
      written = responses isPrint sent →
      Ended isPrint lines ending sent written interrupted writeError err

theorem Ended.interrupt {sent written : List (List Byte)} {interrupted : Bool}
    {writeError : Option E}
    (h : Ended isPrint lines ending sent written interrupted writeError err) :
    Ended isPrint lines ending sent written true writeError err := by
  cases h with
  | writeFails e before text hw he hs hp hr => exact .writeFails e before text hw he hs hp hr
  | stop before text hw he hs hp ht hr => exact .stop before text hw he hs hp ht hr
  | stream hw he hs hp hr => exact .stream hw he hs hp hr
  | interrupted hw _ he hp hr => exact .interrupted hw rfl he hp hr

/-- What has been answered: every line handed over, or all but the one being answered. -/
def Served (isPrint : ℕ → Bool) (lines : List (List Byte)) (ending : Option E)
    (c : Commands E) : Prop :=
  match c.loop with
  | .selecting => Plain c.sent ∧ c.written = responses isPrint c.sent
  | .writing line => ∃ before text, c.sent = before ++ [text] ∧ Plain c.sent ∧
      line = trimSpace text ∧ c.written = responses isPrint before
  | .closing err | .cancelling err | .returned err =>
      Ended isPrint lines ending c.sent c.written c.interrupted c.writeError err

theorem Served.interrupt (h : Served isPrint lines ending c) :
    Served isPrint lines ending { c with interrupted := true } := by
  unfold Served at h ⊢
  dsimp only
  split
  · simpa only [‹c.loop = _›] using h
  · simpa only [‹c.loop = _›] using h
  · simp only [‹c.loop = _›] at h
    exact h.interrupt
  · simp only [‹c.loop = _›] at h
    exact h.interrupt
  · simp only [‹c.loop = _›] at h
    exact h.interrupt

structure Invariant (isPrint : ℕ → Bool) (lines : List (List Byte)) (ending : Option E)
    (c : Commands E) : Prop where
  handed : Handed lines ending c
  running : c.loop.result = none →
    c.inputClosed = false ∧ c.released = false ∧ c.writeError = none
  released : ∀ err, c.loop = .returned err → c.released = true
  served : Served isPrint lines ending c

theorem Invariant.start (isPrint : ℕ → Bool) (lines : List (List Byte)) (ending : Option E) :
    Invariant isPrint lines ending { lines } := ⟨rfl, fun _ => ⟨rfl, rfl, rfl⟩, nofun, nofun, rfl⟩

theorem Handed.isPrefix (h : Handed lines ending c) : c.sent <+: lines := by
  unfold Handed at h
  split at h
  · exact ⟨_, h.symm⟩
  · exact ⟨_, h.symm⟩
  · exact h.1
  · exact h.1
  · exact h.1

theorem Plain.concat {text : List Byte} (h : Plain lines) (ht : ¬ Stops text) :
    Plain (lines ++ [text]) := by
  intro t hmem
  rcases List.mem_append.mp hmem with hmem | hmem
  · exact h t hmem
  · rwa [List.mem_singleton.mp hmem]

/-- Without cancellation a goroutine does not give a line up while the loop runs. -/
theorem Invariant.interrupted (h : Invariant isPrint lines ending c)
    (hresult : c.loop.result = none) (hc : c.cancelled = true) : c.interrupted = true := by
  rw [Commands.cancelled, (h.running hresult).2.1, Bool.or_false] at hc
  exact hc

/-- A step of the goroutine alone. -/
theorem Invariant.scanner (h : Invariant isPrint lines ending c) {scanner : Scanner E}
    {unread : List (List Byte)}
    (hh : Handed lines ending { c with scanner, lines := unread }) :
    Invariant isPrint lines ending { c with scanner, lines := unread } :=
  ⟨hh, h.running, h.released, h.served⟩

/-- The end of the scan: the stream is over, or the input was closed. -/
theorem Invariant.scanEnd (h : Invariant isPrint lines ending c)
    (hend : c.loop.result = none → c.sent = lines ∧ ending = err) :
    Handed lines ending { c with scanner := scanEnd err } := by
  cases err with
  | none => exact ⟨h.handed.isPrefix, fun hresult _ => hend hresult⟩
  | some err => exact ⟨h.handed.isPrefix, hend⟩

/-- What the goroutine knows does not change when the rest moves on. -/
theorem Handed.frame (h : Handed lines ending c) (hscanner : c'.scanner = c.scanner)
    (hsent : c'.sent = c.sent) (hlines : c'.lines = c.lines)
    (hresult : c'.loop.result = none →
      c.loop.result = none ∧ (c'.interrupted = false → c.interrupted = false)) :
    Handed lines ending c' := by
  unfold Handed at h ⊢
  rw [hscanner, hsent, hlines]
  split
  · simpa only [‹c.scanner = _›] using h
  · simpa only [‹c.scanner = _›] using h
  · simp only [‹c.scanner = _›] at h
    exact ⟨h.1, fun hr => h.2 (hresult hr).1⟩
  · simp only [‹c.scanner = _›] at h
    exact ⟨h.1, fun hr hi => h.2 (hresult hr).1 ((hresult hr).2 hi)⟩
  · simp only [‹c.scanner = _›] at h
    exact ⟨h.1, fun hr hi => h.2 (hresult hr).1 ((hresult hr).2 hi)⟩

theorem served_receive {text : List Byte} (hp : Plain c.sent)
    (hw : c.written = responses isPrint c.sent) (he : c.writeError = none)
    {scanner : Scanner E} :
    Served isPrint lines ending
      { c with scanner, loop := receive text, sent := c.sent ++ [text] } := by
  by_cases ht : Stops text
  · have hl : (receive text : Loop E) = .closing none := if_pos ht
    rw [hl]
    exact .stop c.sent text he rfl rfl hp ht hw
  · have hl : (receive text : Loop E) = .writing (trimSpace text) := if_neg ht
    rw [hl]
    exact ⟨c.sent, text, rfl, hp.concat ht, rfl, hw⟩

theorem receive_ne_returned (text : List Byte) (err : Option E) :
    (receive text : Loop E) = .returned err → c.released = true := by
  unfold receive
  dsimp only
  split_ifs <;> exact nofun

theorem Invariant.step (h : Invariant isPrint lines ending c)
    (hstep : Step isPrint ending c c') : Invariant isPrint lines ending c' := by
  have hh := h.handed
  have hs := h.served
  cases hstep with
  | scan hscan hlines =>
    apply h.scanner
    simpa only [Handed, hscan, hlines] using hh
  | scanEnd hscan hlines =>
    apply h.scanner
    apply h.scanEnd
    intro _
    rw [Handed, hscan, hlines, List.append_nil] at hh
    exact ⟨hh.symm, rfl⟩
  | scanClosed err hscan hclosed =>
    apply h.scanner
    apply h.scanEnd
    intro hresult
    rw [(h.running hresult).1] at hclosed
    cases hclosed
  | @sendLine line hsend hloop =>
    have hresult : c.loop.result = none := by rw [hloop]; rfl
    rw [Served, hloop] at hs
    refine ⟨?_, ?_, ?_, served_receive hs.1 hs.2 (h.running hresult).2.2⟩
    · rw [Handed, hsend] at hh
      exact hh.trans (List.append_cons c.sent line c.lines)
    · exact fun _ => h.running hresult
    · exact receive_ne_returned line
  | @sendError err hfail hloop =>
    have hresult : c.loop.result = none := by rw [hloop]; rfl
    rw [Served, hloop] at hs
    rw [Handed, hfail] at hh
    obtain ⟨hsent, hend⟩ := hh.2 hresult
    rw [hsent] at hs
    exact ⟨⟨hh.1, nofun⟩, nofun, nofun,
      .stream (h.running hresult).2.2 hend.symm hsent hs.1 hs.2⟩
  | giveUpLine hsend hc =>
    apply h.scanner
    exact ⟨hh.isPrefix, fun hresult hi => by rw [h.interrupted hresult hc] at hi; cases hi⟩
  | giveUpError hfail hc =>
    apply h.scanner
    exact ⟨hh.isPrefix, fun hresult hi => by rw [h.interrupted hresult hc] at hi; cases hi⟩
  | closeChannel hclosing =>
    apply h.scanner
    rw [Handed, hclosing] at hh
    exact hh
  | cancelled hloop hc =>
    have hresult : c.loop.result = none := by rw [hloop]; rfl
    rw [Served, hloop] at hs
    exact ⟨hh.frame rfl rfl rfl nofun, nofun, nofun,
      .interrupted (h.running hresult).2.2 (h.interrupted hresult hc) rfl hs.1 hs.2⟩
  | channelClosed hloop hdone =>
    have hresult : c.loop.result = none := by rw [hloop]; rfl
    rw [Served, hloop] at hs
    rw [Handed, hdone] at hh
    refine ⟨h.handed.frame rfl rfl rfl nofun, nofun, nofun, ?_⟩
    by_cases hi : c.interrupted = true
    · exact .interrupted (h.running hresult).2.2 hi rfl hs.1 hs.2
    · obtain ⟨hsent, hend⟩ := hh.2 hresult (Bool.eq_false_of_not_eq_true hi)
      rw [hsent] at hs
      exact .stream (h.running hresult).2.2 hend.symm hsent hs.1 hs.2
  | write hloop =>
    have hresult : c.loop.result = none := by rw [hloop]; rfl
    rw [Served, hloop] at hs
    obtain ⟨before, text, hsent, hp, rfl, hw⟩ := hs
    refine ⟨?_, fun _ => h.running hresult, nofun, hp, ?_⟩
    · exact hh.frame rfl rfl rfl fun _ => ⟨hresult, id⟩
    · dsimp only
      rw [hw, hsent, responses, responses, List.map_append, List.map_singleton]
  | writeFails e hloop =>
    rw [Served, hloop] at hs
    obtain ⟨before, text, hsent, hp, rfl, hw⟩ := hs
    exact ⟨hh.frame rfl rfl rfl nofun, nofun, nofun, .writeFails e before text rfl rfl hsent hp hw⟩
  | closeInput hloop =>
    rw [Served, hloop] at hs
    exact ⟨hh.frame rfl rfl rfl nofun, nofun, nofun, hs⟩
  | cancel hloop =>
    rw [Served, hloop] at hs
    exact ⟨hh.frame rfl rfl rfl nofun, nofun, fun _ _ => rfl, hs⟩
  | interrupt hi =>
    exact ⟨hh.frame rfl rfl rfl fun hr => ⟨hr, nofun⟩, h.running, h.released, hs.interrupt⟩

theorem Invariant.reached (h : Reaches (Step isPrint ending) { lines } c) :
    Invariant isPrint lines ending c :=
  h.keeps (fun _ _ hi hs => hi.step hs) (Invariant.start isPrint lines ending)

/-! Every run ends, and it ends with both processes gone. -/

def Scanner.rank : Scanner E → ℕ
  | done => 0
  | closing => 1
  | failing _ => 2
  | scanning => 3
  | sending _ => 5

def Loop.rank : Loop E → ℕ
  | returned _ => 0
  | cancelling _ => 1
  | closing _ => 2
  | selecting => 3
  | writing _ => 4

/-- How many steps may still come, at most. -/
def Commands.remaining (c : Commands E) : ℕ :=
  4 * c.lines.length + c.scanner.rank + c.loop.rank + if c.interrupted then 0 else 1

theorem scanEnd_rank (err : Option E) :
    (scanEnd err).rank < (Scanner.scanning : Scanner E).rank := by
  cases err with
  | none => exact Nat.lt_of_sub_eq_succ rfl
  | some err => exact Nat.lt_of_sub_eq_succ rfl

theorem receive_rank (text : List Byte) : (receive text : Loop E).rank +
    (Scanner.scanning : Scanner E).rank < (Scanner.sending text : Scanner E).rank +
      (Loop.selecting : Loop E).rank := by
  unfold receive
  dsimp only
  split_ifs
  · exact Nat.lt_of_sub_eq_succ rfl
  · exact Nat.lt_of_sub_eq_succ rfl

theorem Step.remaining (h : Step isPrint ending c c') : c'.remaining < c.remaining := by
  cases h with
  | scan hscan hlines =>
    simp only [Commands.remaining, hscan, hlines, Scanner.rank, List.length_cons]
    omega
  | scanEnd hscan hlines =>
    have hr := scanEnd_rank ending
    simp only [Commands.remaining, hscan]
    omega
  | scanClosed err hscan hclosed =>
    have hr := scanEnd_rank err
    simp only [Commands.remaining, hscan]
    omega
  | @sendLine line hsend hloop =>
    have hr := receive_rank (E := E) line
    simp only [Commands.remaining, hsend, hloop]
    omega
  | sendError hfail hloop =>
    simp only [Commands.remaining, hfail, hloop, Scanner.rank, Loop.rank]
    omega
  | giveUpLine hs hc | giveUpError hs hc | closeChannel hs =>
    simp only [Commands.remaining, hs, Scanner.rank]
    omega
  | cancelled hl hx | channelClosed hl hx =>
    simp only [Commands.remaining, hl, Loop.rank]
    omega
  | write hl | writeFails err hl | closeInput hl | cancel hl =>
    simp only [Commands.remaining, hl, Loop.rank]
    omega
  | interrupt hi =>
    simp only [Commands.remaining, hi]
    simp

theorem Invariant.final (h : Invariant isPrint lines ending c)
    (hfinal : Final (Step isPrint ending) c) :
    c.scanner = .done ∧ ∃ err, c.loop = .returned err := by
  have hloop : c.loop = .selecting ∨ ∃ err, c.loop = .returned err := by
    cases hl : c.loop with
    | selecting => exact Or.inl rfl
    | writing line => exact absurd (.write hl) (hfinal _)
    | closing err => exact absurd (.closeInput hl) (hfinal _)
    | cancelling err => exact absurd (.cancel hl) (hfinal _)
    | returned err => exact Or.inr ⟨err, rfl⟩
  have hcancelled : c.loop ≠ .selecting → c.cancelled = true := by
    intro hne
    obtain ⟨err, hl⟩ := hloop.resolve_left hne
    rw [Commands.cancelled, h.released err hl, Bool.or_true]
  have hscanner : c.scanner = .done := by
    cases hs : c.scanner with
    | scanning =>
      cases hl : c.lines with
      | nil => exact absurd (.scanEnd hs hl) (hfinal _)
      | cons line rest => exact absurd (.scan hs hl) (hfinal _)
    | sending line =>
      by_cases hl : c.loop = .selecting
      · exact absurd (.sendLine hs hl) (hfinal _)
      · exact absurd (.giveUpLine hs (hcancelled hl)) (hfinal _)
    | failing err =>
      by_cases hl : c.loop = .selecting
      · exact absurd (.sendError hs hl) (hfinal _)
      · exact absurd (.giveUpError hs (hcancelled hl)) (hfinal _)
    | closing => exact absurd (.closeChannel hs) (hfinal _)
    | done => rfl
  refine ⟨hscanner, hloop.resolve_left fun hl => ?_⟩
  exact hfinal _ (.channelClosed hl hscanner)

/-- After the loop has returned nothing more is handed over or written. -/
theorem Step.frozen (h : Step isPrint ending c c') (hresult : c.loop.result = some err) :
    c'.loop.result = some err ∧ c'.sent = c.sent ∧ c'.written = c.written := by
  cases h with
  | scan hs hx | scanEnd hs hx | scanClosed e hs hx | giveUpLine hs hx | giveUpError hs hx =>
    exact ⟨hresult, rfl, rfl⟩
  | closeChannel hs | interrupt hs => exact ⟨hresult, rfl, rfl⟩
  | sendLine hs hl | sendError hs hl =>
    rw [hl] at hresult
    cases hresult
  | cancelled hl hx | channelClosed hl hx =>
    rw [hl] at hresult
    cases hresult
  | write hl | writeFails e hl =>
    rw [hl] at hresult
    cases hresult
  | closeInput hl | cancel hl =>
    rw [hl] at hresult
    exact ⟨hresult, rfl, rfl⟩

theorem frozen (h : Reaches (Step isPrint ending) c c') (hresult : c.loop.result = some err) :
    c'.loop.result = some err ∧ c'.sent = c.sent ∧ c'.written = c.written :=
  h.keeps (I := fun s => s.loop.result = some err ∧ s.sent = c.sent ∧ s.written = c.written)
    (fun _ _ hi hs => ⟨(hs.frozen hi.1).1, (hs.frozen hi.1).2.1.trans hi.2.1,
      (hs.frozen hi.1).2.2.trans hi.2.2⟩) ⟨hresult, rfl, rfl⟩

/-! What was written, and the result. -/

theorem Ended.within {sent written : List (List Byte)} {interrupted : Bool} {writeError : Option E}
    (h : Ended isPrint lines ending sent written interrupted writeError err)
    (hsent : sent <+: lines) : written <+: responses isPrint (answered lines) := by
  obtain ⟨rest, rfl⟩ := hsent
  cases h with
  | writeFails e before text _ _ hs hp hw =>
    rw [hw, hs, responses, responses]
    rw [hs] at hp
    exact ((List.prefix_append before [text]).trans (prefix_answered hp rest)).map _
  | stop before text _ _ hs hp ht hw =>
    rw [hw, hs, List.append_assoc, List.singleton_append, answered_stop hp ht]
  | stream _ _ _ hp hw => rw [hw, answered_plain hp]
  | interrupted _ _ _ hp hw =>
    rw [hw]
    exact (prefix_answered hp rest).map _

theorem Invariant.written (h : Invariant isPrint lines ending c) :
    c.written <+: responses isPrint (answered lines) := by
  have hsent := h.handed.isPrefix
  have hs := h.served
  unfold Served at hs
  split at hs
  · obtain ⟨rest, rfl⟩ := hsent
    rw [hs.2]
    exact (prefix_answered hs.1 rest).map _
  · obtain ⟨before, text, hb, hp, -, hw⟩ := hs
    obtain ⟨rest, rfl⟩ := hsent
    rw [hb] at hp ⊢
    rw [hw]
    exact ((List.prefix_append before [text]).trans (prefix_answered hp rest)).map _
  · exact hs.within hsent
  · exact hs.within hsent
  · exact hs.within hsent

theorem Invariant.ended (h : Invariant isPrint lines ending c)
    (hresult : c.loop.result = some err) :
    Ended isPrint lines ending c.sent c.written c.interrupted c.writeError err := by
  have hs := h.served
  unfold Served at hs
  split at hs
  · rw [‹c.loop = _›] at hresult
    cases hresult
  · rw [‹c.loop = _›] at hresult
    cases hresult
  · rw [‹c.loop = _›] at hresult
    cases hresult
    exact hs
  · rw [‹c.loop = _›] at hresult
    cases hresult
    exact hs
  · rw [‹c.loop = _›] at hresult
    cases hresult
    exact hs

/-- A failed response is what the loop returns with. -/
theorem Ended.failed {sent written : List (List Byte)} {interrupted : Bool} {writeError : Option E}
    (h : Ended isPrint lines ending sent written interrupted writeError err) {e : E}
    (he : writeError = some e) : err = some e := by
  cases h with
  | writeFails e' before text hw herr => rw [herr, ← hw, he]
  | stop before text hw | stream hw | interrupted hw =>
    rw [he] at hw
    cases hw

/-- Otherwise the loop has answered everything, unless it was interrupted. -/
theorem Ended.complete {sent written : List (List Byte)} {interrupted : Bool}
    {writeError : Option E}
    (h : Ended isPrint lines ending sent written interrupted writeError err)
    (hsent : sent <+: lines) (hw : writeError = none) (hi : interrupted = false) :
    written = responses isPrint (answered lines) ∧ err = outcome ending lines := by
  cases h with
  | writeFails e before text hwe =>
    rw [hw] at hwe
    cases hwe
  | stop before text _ herr hs hp ht hwr =>
    obtain ⟨rest, rfl⟩ := hsent
    rw [hwr, hs, List.append_assoc, List.singleton_append, answered_stop hp ht, herr]
    refine ⟨rfl, (outcome_stop ?_ ht).symm⟩
    exact List.mem_append_right _ List.mem_cons_self
  | stream _ herr _ hp hwr => exact ⟨by rw [hwr, answered_plain hp], by rw [herr, outcome_plain hp]⟩
  | interrupted _ hint =>
    rw [hi] at hint
    cases hint

/-- In every schedule, with every cancellation and every failing write: the runs end, with
both processes gone; the responses are single lines and, in order, those to the lines before
the first blank or `quit` line, all of them unless the run was cancelled or a write failed;
the result is the one of the stream, or the error of the write; and once the loop has
returned nothing is sent or written any more. -/
theorem serveCommands_answers (isPrint : ℕ → Bool) (lines : List (List Byte)) (ending : Option E) :
    WellFounded (fun c' c => Step isPrint ending c c') ∧
    ∀ c, Reaches (Step isPrint ending) { lines } c →
      c.written <+: responses isPrint (answered lines) ∧
      (∀ out ∈ c.written, ∃ text, out = text ++ [newline] ∧ newline ∉ text) ∧
      (∀ err, c.loop.result = some err →
        (∀ e, c.writeError = some e → err = some e) ∧
        (c.writeError = none → c.interrupted = false →
          c.written = responses isPrint (answered lines) ∧ err = outcome ending lines) ∧
        ∀ c', Reaches (Step isPrint ending) c c' →
          c'.loop.result = some err ∧ c'.sent = c.sent ∧ c'.written = c.written) ∧
      (Final (Step isPrint ending) c → c.scanner = .done ∧ ∃ err, c.loop = .returned err) := by
  refine ⟨runs_end Commands.remaining fun _ _ h => h.remaining, ?_⟩
  intro c h
  have hinv := Invariant.reached h
  refine ⟨hinv.written, ?_, ?_, hinv.final⟩
  · intro out hout
    obtain ⟨text, -, rfl⟩ := List.mem_map.mp (hinv.written.subset hout)
    exact response_line isPrint (trimSpace text)
  · intro err hresult
    have hended := hinv.ended hresult
    exact ⟨fun e he => hended.failed he, fun hw hi => hended.complete hinv.handed.isPrefix hw hi,
      fun c' hc' => frozen hc' hresult⟩

end P4Cases.FlowCounter
