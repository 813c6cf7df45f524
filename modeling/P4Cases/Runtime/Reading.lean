import P4Cases.Runtime.Output

/-! Nothing of the output is lost without an error: the buffer, the locks of the two
threads, and every order of their steps. -/
namespace P4Cases.Runtime.Output
open Control
variable {X : Type} {source : List Line} {g g' : Shared X} {r r' : Reader X} {c c' : Consumer X}

/-! What each thread may rely on at its place. -/

def ReaderPc.holds : ReaderPc X → Bool
  | testing _ | appending _ | notifying _ | releasing _ | setting | announcing | leaving => true
  | reading | acquiring _ | showing _ | failing _ | finishing | gone => false

/-- The line that is read but not yet appended. -/
def ReaderPc.pending : ReaderPc X → List Line
  | acquiring line | testing line | appending line => [line]
  | _ => []

/-- Behind the reading loop. -/
def ReaderPc.ended : ReaderPc X → Bool
  | finishing | setting | announcing | leaving | gone => true
  | _ => false

def ReaderPc.afterEof : ReaderPc X → Bool
  | announcing | leaving | gone => true
  | _ => false

structure Reader.Ok (source : List Line) (g : Shared X) (r : Reader X) : Prop where
  lock : g.owner = some .reader ↔ r.pc.holds = true
  source : source.map rstrip = g.appended ++ r.pc.pending ++ r.output.map rstrip
  room : ∀ line, r.pc = .appending line → g.lines.length < maxlen ∨ g.overflow = true
  ended : r.pc.ended = true → g.error ≠ none ∨ r.output = []
  eof : g.eof = true → r.pc.afterEof = true

def Consumer.pastLines : Consumer X → Bool
  | testEof _ | testDeadline _ => true
  | _ => false

def Consumer.pastError : Consumer X → Bool
  | testLines _ | testEof _ | testDeadline _ => true
  | _ => false

def Consumer.pastOverflow : Consumer X → Bool
  | testError _ | testLines _ | testEof _ | testDeadline _ => true
  | _ => false

def Consumer.holds : Consumer X → Bool
  | testOverflow _ | testError _ | testLines _ | testEof _ | testDeadline _ | releasing _ _ => true
  | idle | looping _ | acquiring _ | waiting _ => false

/-- The tests made so far still hold. An error may have come up since, but not before the
end of the output was noted. -/
structure Consumer.Ok (g : Shared X) (c : Consumer X) : Prop where
  lock : g.owner = some .consumer ↔ c.holds = true
  overflow : c.pastOverflow = true → g.overflow = false
  error : c.pastError = true → g.eof = true → g.error = none
  lines : c.pastLines = true → g.lines = []
  decided : ∀ call outcome, c = .releasing call outcome → outcome ∈ g.outcomes

/-- What holds of the buffer and of what was taken out of it. -/
structure Shared.Ok (source : List Line) (g : Shared X) : Prop where
  bounded : g.lines.length ≤ maxlen
  returned : g.returned <+: g.appended
  kept : g.overflow = false → g.appended = g.returned ++ g.lines
  ended : .ended ∈ g.outcomes → g.returned = source.map rstrip
  ready : ∀ banner, (banner, true) ∈ g.answers → ∃ line ∈ g.returned, banner <:+: line

/-! The steps of the reader. -/

theorem append_length (lines : List Line) (line : Line) : (append lines line).length ≤ maxlen := by
  rw [append, List.length_drop, List.length_append, List.length_singleton]
  omega

theorem append_room {lines : List Line} (h : lines.length < maxlen) (line : Line) :
    append lines line = lines ++ [line] := by
  rw [append, Nat.sub_eq_zero_of_le h, List.drop_zero]

theorem Reader.Ok.step (h : r.Ok source g) (hg : g.Ok source) (hstep : ReaderStep g r g' r') :
    r'.Ok source g' := by
  have hlock := h.lock
  have hsource := h.source
  have hended := h.ended
  have heof := h.eof
  cases hstep with
  | read => exact ⟨hlock, by simpa [ReaderPc.pending] using hsource, nofun, nofun, heof⟩
  | readEnd => exact ⟨hlock, hsource, nofun, fun _ => Or.inr rfl, heof⟩
  | readFails => exact ⟨hlock, hsource, nofun, nofun, heof⟩
  | acquire => exact ⟨by simp [ReaderPc.holds], hsource, nofun, nofun, heof⟩
  | test =>
    refine ⟨hlock, hsource, ?_, nofun, heof⟩
    intro line _
    rcases Nat.lt_or_eq_of_le hg.bounded with hlt | heq
    · exact Or.inl hlt
    · exact Or.inr (by simp [heq])
  | append => exact ⟨hlock, by simpa [ReaderPc.pending] using hsource, nofun, nofun, heof⟩
  | notify => exact ⟨hlock, hsource, nofun, nofun, heof⟩
  | release => exact ⟨by simp [ReaderPc.holds], hsource, nofun, nofun, heof⟩
  | info => exact ⟨hlock, hsource, nofun, nofun, heof⟩
  | infoFails => exact ⟨hlock, hsource, nofun, nofun, heof⟩
  | setError => exact ⟨hlock, hsource, nofun, fun _ => Or.inl nofun, heof⟩
  | finish => exact ⟨by simp [ReaderPc.holds], hsource, nofun, hended, heof⟩
  | setEof => exact ⟨hlock, hsource, nofun, hended, fun _ => rfl⟩
  | announce => exact ⟨hlock, hsource, nofun, hended, heof⟩
  | leave => exact ⟨by simp [ReaderPc.holds], hsource, nofun, hended, heof⟩

/-- A line is appended, and dropped ones are only missed after an overflow. -/
theorem Shared.Ok.append (hg : g.Ok source) {lines : List Line} {line : Line}
    (hlen : lines.length ≤ maxlen) (hlines : g.overflow = false → lines = g.lines ++ [line]) :
    Shared.Ok source { g with lines, appended := g.appended ++ [line] } := by
  refine ⟨hlen, hg.returned.trans (List.prefix_append _ _), ?_, hg.ended, hg.ready⟩
  intro ho
  calc
    g.appended ++ [line] = g.returned ++ g.lines ++ [line] := by rw [hg.kept ho]
    _ = g.returned ++ lines := by rw [hlines ho, List.append_assoc]

theorem Shared.Ok.reader (hg : g.Ok source) (h : r.Ok source g) (hstep : ReaderStep g r g' r') :
    g'.Ok source := by
  cases hstep with
  | test =>
    refine ⟨hg.bounded, hg.returned, ?_, hg.ended, hg.ready⟩
    intro ho
    exact hg.kept (Bool.or_eq_false_iff.mp ho).1
  | @append line output =>
    apply hg.append (append_length g.lines line)
    intro ho
    exact append_room ((h.room line rfl).resolve_right (by simp [ho])) line
  | read | readEnd | readFails | notify | info | infoFails | announce => exact hg
  | acquire | release | setError | finish | setEof | leave =>
    exact ⟨hg.bounded, hg.returned, hg.kept, hg.ended, hg.ready⟩

/-- A consumer without the lock relies on nothing. -/
theorem Consumer.Ok.unlocked (h : c.Ok g) (hg : g.owner ≠ some .consumer)
    (hg' : g'.owner ≠ some .consumer) : c.Ok g' := by
  have hholds : c.holds = false := Bool.eq_false_of_not_eq_true fun hh => hg (h.lock.mpr hh)
  cases c with
  | idle | looping call | acquiring call | waiting call =>
    exact ⟨⟨fun ho => absurd ho hg', nofun⟩, nofun, nofun, nofun, nofun⟩
  | testOverflow call | testError call | testLines call | testEof call | testDeadline call =>
    cases hholds
  | releasing call outcome => cases hholds

/-- The steps of the reader are under its lock, or take it, or leave what the consumer
tested as it was. -/
theorem Consumer.Ok.reader (h : c.Ok g) (hr : r.Ok source g) (hstep : ReaderStep g r g' r') :
    c.Ok g' := by
  have hlock := hr.lock
  cases hstep with
  | read | readEnd | readFails | notify | info | infoFails | announce => exact h
  | acquire hfree | finish hfree => exact h.unlocked (by simp [hfree]) (by simp)
  | test | append | setEof =>
    have ho := hlock.mpr rfl
    exact h.unlocked (by simp [ho]) (by simp [ho])
  | release | leave =>
    have ho := hlock.mpr rfl
    exact h.unlocked (by simp [ho]) (by simp)
  | setError =>
    refine ⟨h.lock, h.overflow, ?_, h.lines, h.decided⟩
    intro _ heof
    cases hr.eof heof

/-! The steps of the consumer. -/

theorem Consumer.Ok.step (h : c.Ok g) (hstep : ConsumerStep g c g' c') : c'.Ok g' := by
  have hlock := h.lock
  cases hstep with
  | readline | linesFor | waitReady | goOn | expire =>
    exact ⟨hlock, nofun, nofun, nofun, nofun⟩
  | acquire | wake => exact ⟨by simp [Consumer.holds], nofun, nofun, nofun, nofun⟩
  | overflowed | failed | popleft | ended | timedOut =>
    refine ⟨hlock, nofun, nofun, nofun, ?_⟩
    intro call outcome he
    cases he
    exact List.mem_append_right _ (List.mem_singleton.mpr rfl)
  | notOverflowed ho => exact ⟨hlock, fun _ => ho, nofun, nofun, nofun⟩
  | notFailed he => exact ⟨hlock, h.overflow, fun _ _ => he, nofun, nofun⟩
  | noLines hl => exact ⟨hlock, h.overflow, h.error, fun _ => hl, nofun⟩
  | notEnded => exact ⟨hlock, h.overflow, h.error, h.lines, nofun⟩
  | wait => exact ⟨by simp [Consumer.holds], nofun, nofun, nofun, nofun⟩
  | @release call outcome =>
    have hidle : ∀ c : Consumer X, c = .idle ∨ (∃ call, c = .looping call) →
        c.Ok { g with owner := none, answers := g.answers ++ (resume call outcome).2 } := by
      rintro c (rfl | ⟨call, rfl⟩)
      · exact ⟨by simp [Consumer.holds], nofun, nofun, nofun, nofun⟩
      · exact ⟨by simp [Consumer.holds], nofun, nofun, nofun, nofun⟩
    apply hidle
    unfold resume
    split
    · split_ifs
      · exact Or.inl rfl
      · exact Or.inr ⟨_, rfl⟩
    all_goals exact Or.inl rfl

/-- The reader does not notice more than shorter lines. -/
theorem Reader.Ok.consumer (h : r.Ok source g) (hc : c.Ok g) (hstep : ConsumerStep g c g' c') :
    r.Ok source g' := by
  have hlock := h.lock
  have hclock := hc.lock
  have hfree : g.owner = none → r.pc.holds = false := fun hn =>
    Bool.eq_false_of_not_eq_true fun hh => by simp [hlock.mpr hh] at hn
  have hnot : c.holds = true → r.pc.holds = false := fun hch =>
    Bool.eq_false_of_not_eq_true fun hh => by simp [hlock.mpr hh] at hclock; simp [hch] at hclock
  cases hstep with
  | readline | linesFor | waitReady | goOn | notOverflowed | notFailed | noLines | notEnded =>
    exact h
  | expire | overflowed | failed | ended | timedOut =>
    exact ⟨hlock, h.source, h.room, h.ended, h.eof⟩
  | popleft hl =>
    refine ⟨hlock, h.source, ?_, h.ended, h.eof⟩
    intro line hpc
    have hroom := h.room line hpc
    rw [hl, List.length_cons] at hroom
    exact hroom.imp Nat.lt_of_succ_lt id
  | acquire hn | wake hn =>
    exact ⟨by simp [hfree hn], h.source, h.room, h.ended, h.eof⟩
  | wait | release =>
    exact ⟨by simp [hnot rfl], h.source, h.room, h.ended, h.eof⟩

theorem decide_returned (g : Shared X) (outcome : Outcome X) :
    (g.decide outcome).returned = g.returned ++ outcome.text?.toList := by
  unfold Shared.decide Shared.returned
  rw [List.filterMap_append]
  cases outcome <;> rfl

/-- An outcome that is no line. -/
theorem Shared.Ok.decide (hg : g.Ok source) {outcome : Outcome X} (ht : outcome.text? = none)
    (hended : outcome = .ended → g.returned = source.map rstrip) :
    (g.decide outcome).Ok source := by
  have hreturned : (g.decide outcome).returned = g.returned := by
    rw [decide_returned, ht]
    exact List.append_nil _
  refine ⟨hg.bounded, ?_, ?_, ?_, ?_⟩
  · rw [hreturned]
    exact hg.returned
  · rw [hreturned]
    exact hg.kept
  · intro hmem
    rw [hreturned]
    rcases List.mem_append.mp hmem with hmem | hmem
    · exact hg.ended hmem
    · exact hended (List.mem_singleton.mp hmem).symm
  · rw [hreturned]
    exact hg.ready

theorem resume_ready {call : Call} {outcome : Outcome X} {banner : Line}
    (h : (banner, true) ∈ (resume call outcome).2) :
    ∃ text, outcome = .line text ∧ banner <:+: text := by
  unfold resume at h
  split at h
  · split_ifs at h with hin
    · cases List.mem_singleton.mp h
      exact ⟨_, rfl, hin⟩
    · cases h
  all_goals simp at h

theorem expire_ready {call : Call} {banner : Line} : (banner, true) ∉ expire call := by
  cases call <;> simp [expire]

theorem Shared.Ok.consumer (hg : g.Ok source) (hr : r.Ok source g) (hc : c.Ok g)
    (hstep : ConsumerStep g c g' c') : g'.Ok source := by
  cases hstep with
  | readline | linesFor | waitReady | goOn | notOverflowed | notFailed | noLines | notEnded =>
    exact hg
  | acquire | wait | wake => exact ⟨hg.bounded, hg.returned, hg.kept, hg.ended, hg.ready⟩
  | expire =>
    refine ⟨hg.bounded, hg.returned, hg.kept, hg.ended, ?_⟩
    intro banner hmem
    exact hg.ready banner ((List.mem_append.mp hmem).resolve_right expire_ready)
  | overflowed | failed | timedOut => exact hg.decide rfl nofun
  | ended heof =>
    apply hg.decide rfl
    intro _
    -- The lock shows the reader's error if there is one, so the output was read to its end.
    have hpast := hr.eof heof
    have hended : r.pc.ended = true ∧ r.pc.pending = [] := by
      cases hpc : r.pc <;> simp_all [ReaderPc.afterEof, ReaderPc.ended, ReaderPc.pending]
    have hout := (hr.ended hended.1).resolve_left (not_not.mpr (hc.error rfl heof))
    have hkept := hg.kept (hc.overflow rfl)
    rw [hc.lines rfl, List.append_nil] at hkept
    have hsource := hr.source
    rw [hended.2, hout, List.map_nil, List.append_nil, List.append_nil] at hsource
    rw [hsource, hkept]
  | @popleft call line rest hl =>
    have hkept := hg.kept (hc.overflow rfl)
    have hreturned : ({ g with lines := rest }.decide (.line line)).returned =
        g.returned ++ [line] := decide_returned _ _
    refine ⟨?_, ?_, ?_, ?_, ?_⟩
    · have hb := hg.bounded
      rw [hl] at hb
      exact Nat.le_of_succ_le hb
    · rw [hreturned]
      show g.returned ++ [line] <+: g.appended
      rw [hkept, hl]
      exact ⟨rest, by simp⟩
    · intro _
      rw [hreturned]
      show g.appended = g.returned ++ [line] ++ rest
      rw [hkept, hl]
      simp
    · intro hmem
      -- Everything had been returned, so the buffer was empty.
      have hold := hg.ended ((List.mem_append.mp hmem).resolve_right (by simp))
      have hsource := hr.source
      rw [hkept, hl, ← hold] at hsource
      have hlen := congrArg List.length hsource
      simp at hlen
    · intro banner hmem
      obtain ⟨text, ht, hin⟩ := hg.ready banner hmem
      rw [hreturned]
      exact ⟨text, List.mem_append_left _ ht, hin⟩
  | @release call outcome =>
    refine ⟨hg.bounded, hg.returned, hg.kept, hg.ended, ?_⟩
    intro banner hmem
    rcases List.mem_append.mp hmem with hmem | hmem
    · exact hg.ready banner hmem
    · obtain ⟨text, rfl, hin⟩ := resume_ready hmem
      refine ⟨text, ?_, hin⟩
      exact List.mem_filterMap.mpr ⟨_, hc.decided call _ rfl, rfl⟩

/-! Runs. -/

abbrev System (X : Type) := Shared X × Reader X × Consumer X

abbrev Step : System X → System X → Prop := Interleave ReaderStep ConsumerStep

/-- Nothing is read yet, and nothing called. -/
def start (source : List Line) : System X := ({}, { output := source }, .idle)

def System.Ok (source : List Line) (s : System X) : Prop :=
  s.1.Ok source ∧ s.2.1.Ok source s.1 ∧ s.2.2.Ok s.1

theorem start_ok (source : List Line) : (start source : System X).Ok source := by
  refine ⟨⟨?_, List.prefix_rfl, fun _ => rfl, nofun, nofun⟩, ⟨?_, rfl, nofun, nofun, nofun⟩,
    ⟨?_, nofun, nofun, nofun, nofun⟩⟩
  · exact Nat.zero_le maxlen
  · exact ⟨nofun, nofun⟩
  · exact ⟨nofun, nofun⟩

theorem System.Ok.step {s s' : System X} (h : s.Ok source) (hstep : Step s s') : s'.Ok source :=
  Interleave.keeps
    (fun hg hr hc hs => ⟨hg.reader hr hs, hr.step hg hs, hc.reader hr hs⟩)
    (fun hg hr hc hs => ⟨hg.consumer hr hc hs, hr.consumer hc hs, hc.step hs⟩) s s' h hstep

theorem System.Ok.reaches {s s' : System X} (h : s.Ok source) (hrun : Reaches Step s s') :
    s'.Ok source := hrun.keeps (fun _ _ hs hstep => hs.step hstep) h

/-- The number of lines in the buffer or dropped from it. -/
def Shared.unread (g : Shared X) : ℕ := g.appended.length - g.returned.length

theorem Shared.Ok.overflow (hg : g.Ok source) (h : maxlen < g.unread) : g.overflow = true := by
  by_contra ho
  have hkept := congrArg List.length (hg.kept (Bool.eq_false_of_not_eq_true ho))
  have hlen := hg.bounded
  rw [List.length_append] at hkept
  unfold unread at h
  omega

theorem ReaderStep.outcomes (hstep : ReaderStep g r g' r') : g'.outcomes = g.outcomes := by
  cases hstep <;> rfl

theorem ReaderStep.overflow (hstep : ReaderStep g r g' r') (ho : g.overflow = true) :
    g'.overflow = true := by
  cases hstep with
  | test => simp only [ho, Bool.true_or]
  | _ => exact ho

theorem Consumer.Ok.not_past (h : c.Ok g) (ho : g.overflow = true) : c.pastOverflow = false := by
  by_contra hp
  have hno := h.overflow (Bool.eq_true_of_not_eq_false hp)
  rw [ho] at hno
  cases hno

/-- Once the buffer has overflowed a call can only come to that error. -/
theorem ConsumerStep.only_overflowed (hstep : ConsumerStep g c g' c') (h : c.Ok g)
    (ho : g.overflow = true) : g'.overflow = true ∧
      (g'.outcomes = g.outcomes ∨ g'.outcomes = g.outcomes ++ [.overflowed]) := by
  have hpast := h.not_past ho
  cases hstep with
  | overflowed => exact ⟨ho, Or.inr rfl⟩
  | failed | popleft | ended | timedOut => cases hpast
  | _ => exact ⟨ho, Or.inl rfl⟩

theorem overflowed_step {s s' : System X} (h : s.Ok source) (hstep : Step s s')
    (ho : s.1.overflow = true) : s'.1.overflow = true ∧
      (s'.1.outcomes = s.1.outcomes ∨ s'.1.outcomes = s.1.outcomes ++ [.overflowed]) := by
  cases hstep with
  | left c hs => exact ⟨hs.overflow ho, Or.inl hs.outcomes⟩
  | right r hs => exact hs.only_overflowed h.2.2 ho

theorem overflowed_reaches {s s' : System X} (h : s.Ok source) (ho : s.1.overflow = true)
    (hrun : Reaches Step s s') : s'.1.overflow = true ∧
      ∃ later, s'.1.outcomes = s.1.outcomes ++ later ∧
        ∀ outcome ∈ later, outcome = .overflowed := by
  induction hrun with
  | refl => exact ⟨ho, [], (List.append_nil _).symm, nofun⟩
  | tail hrun hstep ih =>
    obtain ⟨ho', later, hlater, hall⟩ := ih
    obtain ⟨ho'', hsame | hmore⟩ := overflowed_step (h.reaches hrun) hstep ho'
    · exact ⟨ho'', later, hsame.trans hlater, hall⟩
    · refine ⟨ho'', later ++ [.overflowed], ?_, ?_⟩
      · rw [hmore, hlater, List.append_assoc]
      · intro outcome hmem
        rcases List.mem_append.mp hmem with hmem | hmem
        · exact hall outcome hmem
        · exact List.mem_singleton.mp hmem

/-- Controller output is never silently lost: in every state of every run the lines returned
are a prefix of those appended, and these of the output; after more than 4096 unread lines
every call raises; the end of the output is reported when everything was returned; and
`wait_ready` says True for a banner that a returned line contains. -/
theorem output_kept (source : List Line) (s : System X) (h : Reaches Step (start source) s) :
    s.1.returned <+: s.1.appended ∧ s.1.appended <+: source.map rstrip ∧
    (4096 < s.1.unread → ∀ s', Reaches Step s s' →
      ∃ later, s'.1.outcomes = s.1.outcomes ++ later ∧ ∀ outcome ∈ later, outcome = .overflowed) ∧
    (.ended ∈ s.1.outcomes → s.1.returned = source.map rstrip) ∧
    ∀ banner, (banner, true) ∈ s.1.answers → ∃ line ∈ s.1.returned, banner <:+: line := by
  have hs := (start_ok source).reaches h
  have hg := hs.1
  have hr := hs.2.1
  refine ⟨hg.returned, ?_, ?_, hg.ended, hg.ready⟩
  · rw [hr.source, List.append_assoc]
    exact List.prefix_append _ _
  · intro hunread s' hrun
    exact (overflowed_reaches hs (hg.overflow hunread) hrun).2

def readyLine : Line := ['r', 'e', 'a', 'd', 'y']

/-- A controller has announced itself and `wait_ready` has seen it. -/
def announced : System Unit :=
  ({ appended := [readyLine], outcomes := [.line readyLine], answers := [(readyLine, true)] },
    { pc := .showing readyLine, output := [] }, .idle)

theorem reaches_announced : Reaches Step (start [readyLine ++ ['\n']]) announced := by
  refine .head (.left _ .read) (.head (.left _ (.acquire rfl)) ?_)
  refine .head (.left _ .test) (.head (.left _ .append) ?_)
  refine .head (.left _ .notify) (.head (.left _ .release) ?_)
  refine .head (.right _ (.waitReady readyLine)) (.head (.right _ .goOn) ?_)
  refine .head (.right _ (.acquire rfl)) (.head (.right _ (.notOverflowed rfl)) ?_)
  refine .head (.right _ (.notFailed rfl)) (.head (.right _ (.popleft rfl)) ?_)
  exact .single (.right _ .release)

theorem output_kept_announced : announced.1.returned <+: announced.1.appended ∧
    ∃ line ∈ announced.1.returned, readyLine <:+: line := by
  have h := output_kept [readyLine ++ ['\n']] announced reaches_announced
  exact ⟨h.1, h.2.2.2.2 readyLine (List.mem_singleton.mpr rfl)⟩

end P4Cases.Runtime.Output
