import Kuintessence.Lib.Run
import Mathlib.Logic.Function.Basic

namespace Kuintessence.Agent.TokenManager

structure InnerState where
  accessToken : String
  refreshToken : String
  deriving DecidableEq, Repr

-- How far a `send` is. From `tagged` on its request carries the header it was given.
inductive Phase where
  | ready
  | tagged (header : String)
  | expired (header : String)
  | refreshing (header : String)
  | refreshed (header : String)
  | finished
  deriving DecidableEq, Repr

inductive Event where
  | refused (send : Nat) (header : String)
  | granted (accessToken : String)
  | resent (send : Nat) (header : String)
  deriving DecidableEq, Repr

structure State where
  inner : InnerState
  writer : Option Nat
  phase : Nat → Phase
  trace : List Event

-- One step of one of the sends. `reply` and `grant` bring what the servers answer, `grant none`
-- an authorisation server that fails. A send is dropped when its timeout is over.
inductive Action where
  | read (send : Nat)
  | reply (send : Nat) (expired : Bool)
  | lock (send : Nat)
  | grant (send : Nat) (grantInfo : Option InnerState)
  | resend (send : Nat)
  | drop (send : Nat)
  deriving DecidableEq, Repr

def start (inner : InnerState) : State := ⟨inner, none, fun _ => .ready, []⟩

def State.to (s : State) (i : Nat) (phase : Phase) (events : List Event) : State :=
  { s with phase := Function.update s.phase i phase, trace := s.trace ++ events }

def step (s : State) : Action → State
  | .read i =>
    match s.phase i, s.writer with
    | .ready, none => s.to i (.tagged s.inner.accessToken) []
    | _, _ => s
  | .reply i expired =>
    match s.phase i with
    | .tagged header =>
      if expired then s.to i (.expired header) [.refused i header] else s.to i .finished []
    | _ => s
  | .lock i =>
    match s.phase i, s.writer with
    | .expired header, none => { s.to i (.refreshing header) [] with writer := some i }
    | _, _ => s
  | .grant i grantInfo =>
    match s.phase i with
    | .refreshing header =>
      match grantInfo with
      | some inner =>
        { s.to i (.refreshed header) [.granted inner.accessToken] with
          inner := inner
          writer := none }
      | none => { s.to i .finished [] with writer := none }
    | _ => s
  | .resend i =>
    match s.phase i with
    | .refreshed header => s.to i .finished [.resent i header]
    | _ => s
  | .drop i =>
    { s.to i .finished [] with writer := if s.writer = some i then none else s.writer }

-- The header was granted after the reply that refused the first request, and is not the one refused.
def Renewed (before : List Event) (i : Nat) (header : String) : Prop :=
  ∃ early refused late, before = early ++ .refused i refused :: late ∧
    .granted header ∈ late ∧ header ≠ refused

inductive Turn (i : Nat) : Phase → Phase → List Event → Prop where
  | tag (header : String) : Turn i .ready (.tagged header) []
  | refuse (header : String) : Turn i (.tagged header) (.expired header) [.refused i header]
  | lock (header : String) : Turn i (.expired header) (.refreshing header) []
  | grant (header accessToken : String) :
      Turn i (.refreshing header) (.refreshed header) [.granted accessToken]
  | resend (header : String) : Turn i (.refreshed header) .finished [.resent i header]
  | leave (phase : Phase) : Turn i phase .finished []

theorem step_turn (s : State) (a : Action) : step s a = s ∨ ∃ i phase events,
    Turn i (s.phase i) phase events ∧ (step s a).phase = Function.update s.phase i phase ∧
      (step s a).trace = s.trace ++ events := by
  cases a with
  | read i =>
    rw [step]
    split
    · next hphase _ => exact .inr ⟨i, _, _, hphase ▸ .tag _, rfl, rfl⟩
    · exact .inl rfl
  | reply i expired =>
    rw [step]
    split
    · next header hphase =>
      cases expired with
      | true => exact .inr ⟨i, _, _, hphase ▸ .refuse header, rfl, rfl⟩
      | false => exact .inr ⟨i, _, _, .leave _, rfl, rfl⟩
    · exact .inl rfl
  | lock i =>
    rw [step]
    split
    · next header hphase _ => exact .inr ⟨i, _, _, hphase ▸ .lock header, rfl, rfl⟩
    · exact .inl rfl
  | grant i grantInfo =>
    rw [step]
    split
    · next header hphase =>
      cases grantInfo with
      | some inner => exact .inr ⟨i, _, _, hphase ▸ .grant header inner.accessToken, rfl, rfl⟩
      | none => exact .inr ⟨i, _, _, .leave _, rfl, rfl⟩
    · exact .inl rfl
  | resend i =>
    rw [step]
    split
    · next header hphase => exact .inr ⟨i, _, _, hphase ▸ .resend header, rfl, rfl⟩
    · exact .inl rfl
  | drop i => exact .inr ⟨i, _, _, .leave _, rfl, rfl⟩

-- What the trace tells of a send: until the end of it, its request carries the header refused.
def Told (trace : List Event) (i : Nat) : Phase → Prop
  | .ready | .tagged _ => ∀ h, .refused i h ∉ trace ∧ .resent i h ∉ trace
  | .expired header | .refreshing header | .refreshed header =>
    ∀ h, (.refused i h ∈ trace → h = header) ∧ .resent i h ∉ trace
  | .finished => ∀ h h', .refused i h ∈ trace → .resent i h' ∈ trace → h = h'

section

variable {trace events : List Event} {i j : Nat} {phase phase' : Phase}

theorem Told.finished (h : Told trace i phase) : Told trace i .finished := by
  intro r r' hr hr'
  cases phase with
  | ready => exact absurd hr (h r).1
  | tagged header => exact absurd hr (h r).1
  | expired header => exact absurd hr' (h r').2
  | refreshing header => exact absurd hr' (h r').2
  | refreshed header => exact absurd hr' (h r').2
  | finished => exact h r r' hr hr'

theorem Told.turn (hturn : Turn i phase phase' events) (h : Told trace i phase) :
    Told (trace ++ events) i phase' := by
  cases hturn with
  | tag header => simpa [Told] using h
  | refuse header =>
    intro r
    have hnone := h r
    constructor
    · intro hr
      obtain hr | hr := List.mem_append.mp hr
      · exact absurd hr hnone.1
      · cases List.mem_singleton.mp hr
        rfl
    · intro hr
      obtain hr | hr := List.mem_append.mp hr
      · exact hnone.2 hr
      · cases List.mem_singleton.mp hr
  | lock header => simpa [Told] using h
  | grant header accessToken => simpa [Told] using h
  | resend header =>
    intro r r' hr hr'
    have hr : r = header := by
      obtain hr | hr := List.mem_append.mp hr
      · exact (h r).1 hr
      · cases List.mem_singleton.mp hr
    obtain hr' | hr' := List.mem_append.mp hr'
    · exact absurd hr' (h r').2
    · cases List.mem_singleton.mp hr'
      exact hr
  | leave =>
    rw [List.append_nil]
    exact h.finished

theorem Told.other (hturn : Turn j phase phase' events) (hij : i ≠ j) {own : Phase}
    (h : Told trace i own) : Told (trace ++ events) i own := by
  have hrefused : ∀ r, .refused i r ∈ trace ++ events ↔ .refused i r ∈ trace := by
    intro r
    cases hturn <;> simp [hij]
  have hresent : ∀ r, .resent i r ∈ trace ++ events ↔ .resent i r ∈ trace := by
    intro r
    cases hturn <;> simp [hij]
  cases own <;> simpa only [Told, hrefused, hresent] using h

end

def Consistent (s : State) : Prop := ∀ i, Told s.trace i (s.phase i)

theorem consistent_start (inner : InnerState) : Consistent (start inner) :=
  fun _ _ => ⟨List.not_mem_nil, List.not_mem_nil⟩

theorem step_consistent (s : State) (a : Action) (h : Consistent s) : Consistent (step s a) := by
  obtain hsame | ⟨i, phase, events, hturn, hphase, htrace⟩ := step_turn s a
  · rw [hsame]
    exact h
  · intro j
    rw [hphase, htrace]
    by_cases hij : j = i
    · rw [hij, Function.update_self]
      exact (h i).turn hturn
    · rw [Function.update_of_ne hij]
      exact (h j).other hturn hij

theorem run_consistent (inner : InnerState) (actions : List Action) :
    Consistent (run step (start inner) actions) :=
  run_preserves step_consistent (consistent_start inner) actions

theorem resent_not_renewed (inner : InnerState) (actions : List Action) {before after : List Event}
    {i : Nat} {header : String}
    (h : (run step (start inner) actions).trace = before ++ .resent i header :: after) :
    ¬ Renewed before i header := by
  rintro ⟨early, refused, late, rfl, -, hne⟩
  have htold := (run_consistent inner actions i).finished
  rw [h] at htold
  exact hne (htold refused header (by simp) (by simp)).symm

def late : List Action :=
  [.read 0, .read 1, .reply 0 true, .reply 1 true, .lock 0, .grant 0 (some ⟨"second", "r1"⟩),
    .resend 0, .lock 1, .grant 1 (some ⟨"third", "r2"⟩), .resend 1]

theorem resent_not_renewed_late :
    (run step (start ⟨"first", "r0"⟩) late).trace =
      [.refused 0 "first", .refused 1 "first", .granted "second"] ++
        .resent 0 "first" :: [.granted "third", .resent 1 "first"] ∧
    ¬ Renewed [.refused 0 "first", .refused 1 "first", .granted "second"] 0 "first" := by
  have htrace : (run step (start ⟨"first", "r0"⟩) late).trace =
      [.refused 0 "first", .refused 1 "first", .granted "second"] ++
        .resent 0 "first" :: [.granted "third", .resent 1 "first"] := by decide
  exact ⟨htrace, resent_not_renewed ⟨"first", "r0"⟩ late htrace⟩

theorem resent_refused : ¬ ∀ inner actions before after i header,
    (run step (start inner) actions).trace = before ++ .resent i header :: after →
      Renewed before i header := by
  intro h
  obtain ⟨early, refused, late, hbefore, hgranted, -⟩ := h ⟨"first", "r0"⟩
    [.read 0, .reply 0 true, .lock 0, .grant 0 (some ⟨"second", "r1"⟩), .resend 0]
    [.refused 0 "first", .granted "second"] [] 0 "first" (by decide)
  have hmem : Event.granted "first" ∈ [Event.refused 0 "first", Event.granted "second"] := by
    rw [hbefore]
    simp [hgranted]
  exact absurd hmem (by decide)

end Kuintessence.Agent.TokenManager
