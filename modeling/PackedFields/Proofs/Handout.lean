import PackedFields.Machine.Sample
import PackedFields.Session
import Mathlib.Data.List.Forall2

/-!
# The support declarations are handed out once

A history is a list of requests with their answers, taken one at a time from some moment on. Three
kinds of requests put a guard to use: claims, requests for the support declarations and requests
for many fields at once. Whatever else happens in between, the first of them for a guard gets the
declarations and no later one does, and what is generated is what a new session would generate.
-/

namespace PackedFields

/-! ## Requests and answers -/

namespace Request

/-- Whether a guard or a session is made. -/
def makes : Request → Bool
  | newGuard _ | newSession _ _ | joinSession _ _ _ => true
  | _ => false

/-- Whether a guard is put to use. -/
def claims : Request → Bool
  | claim _ | takeSupport _ | generateAll _ _ => true
  | _ => false

/-- The session that is read, by a request that makes nothing and puts no guard to use. -/
def reads? : Request → Option String
  | crate session | generate session _ | generateContainer session _ _ => some session
  | _ => none

theorem makes_or_claims_or_reads (r : Request) :
    r.makes = true ∧ r.claims = false ∨ r.claims = true ∨
      ∃ session, r.reads? = some session ∧ r.claims = false := by
  cases r with
  | newGuard | newSession | joinSession => exact .inl ⟨rfl, rfl⟩
  | claim | takeSupport | generateAll => exact .inr (.inl rfl)
  | crate | generate | generateContainer => exact .inr (.inr ⟨_, rfl, rfl⟩)

/-- Whether the support declarations are asked for. -/
def takesSupport : Request → Bool
  | takeSupport _ | generateAll _ _ => true
  | _ => false

/-- The answer to a request that puts a guard to use, for the first time or not. -/
def reply (first : Bool) : Request → Answer
  | takeSupport _ => .support (Support.handedOut first)
  | generateAll _ schemas => .fields (Support.handedOut first) (schemas.map Schema.generate)
  | _ => .granted first

/-- The answer to a request that reads a session with the path `path`. -/
def outcome (path : Path) : Request → Answer
  | generate _ schema => .field schema.generate
  | generateContainer _ container schemas => .container (container.generate path schemas)
  | _ => .crate path

end Request

/-- The support declarations that an answer holds. -/
def Answer.support? : Answer → Option (List Token)
  | .support declarations => declarations
  | .fields declarations _ => declarations
  | _ => none

/-- Whether the support declarations, or the right to them, are handed out. -/
def Answer.handsOut : Answer → Bool
  | .granted ok => ok
  | a => a.support?.isSome

theorem Support.isSome_handedOut (ok : Bool) : (handedOut ok).isSome = ok := by
  cases ok <;> rfl

theorem Request.handsOut_reply (first : Bool) (r : Request) : (r.reply first).handsOut = first := by
  cases r with
  | takeSupport | generateAll => exact Support.isSome_handedOut first
  | _ => rfl

theorem Request.support?_reply (first : Bool) (r : Request) :
    (r.reply first).support? = Support.handedOut (r.takesSupport && first) := by
  cases r <;> rfl

theorem Request.support?_outcome (path : Path) (r : Request) :
    (r.outcome path).support? = none := by
  cases r <;> rfl

theorem Request.takesSupport_of_not_claims {r : Request} (hr : r.claims = false) :
    r.takesSupport = false := by
  cases r with
  | takeSupport | generateAll => cases hr
  | _ => rfl

theorem Request.handsOut_outcome (path : Path) (r : Request) :
    (r.outcome path).handsOut = false := by
  cases r <;> rfl

namespace Workspace

/-- The guard that a request puts to use, if there is one. -/
def asked? (w : Workspace) : Request → Option Guard
  | .claim guard => w.guards.lookup guard
  | .takeSupport session => (w.sessions.lookup session).map Session.guard
  | .generateAll session _ => (w.sessions.lookup session).map Session.guard
  | _ => none

/-- What a request names exists. -/
def Knows (w : Workspace) : Request → Prop
  | .newGuard _ => True
  | .newSession _ _ => True
  | .joinSession _ _ guard => ∃ g, w.guards.lookup guard = some g
  | .claim guard => ∃ g, w.guards.lookup guard = some g
  | .crate session => ∃ s, w.sessions.lookup session = some s
  | .takeSupport session => ∃ s, w.sessions.lookup session = some s
  | .generate session _ => ∃ s, w.sessions.lookup session = some s
  | .generateAll session _ => ∃ s, w.sessions.lookup session = some s
  | .generateContainer session _ _ => ∃ s, w.sessions.lookup session = some s

variable {w w' : Workspace} {r : Request} {a : Answer} {g k : Guard}

/-! ## Claims -/

theorem claim_fst_iff : (w.claim g).1 = true ↔ g ∉ w.spent := by
  rw [claim]
  split
  · next hspent => simp [List.contains_iff_mem.mp hspent]
  · next hspent => simpa using hspent

theorem claim_snd (w : Workspace) (g : Guard) :
    (w.claim g).2 = { w with spent := (w.claim g).2.spent } := by
  rw [claim]
  split <;> rfl

theorem mem_spent_claim : k ∈ (w.claim g).2.spent ↔ k ∈ w.spent ∨ g = k := by
  rw [claim]
  split
  · next hspent =>
    have hmem := List.contains_iff_mem.mp hspent
    exact ⟨Or.inl, fun h => h.elim id fun hk => hk ▸ hmem⟩
  · rw [List.mem_cons, or_comm, eq_comm]

/-! ## What one request does -/

/-- The three requests that put a guard to use claim it, and the answer goes by that alone. -/
theorem answer?_of_claims (w : Workspace) (hr : r.claims = true) :
    w.answer? r = (w.asked? r).map fun g => (r.reply (w.claim g).1, (w.claim g).2) := by
  cases r with
  | claim guard =>
    rw [answer?, asked?]
    cases w.guards.lookup guard <;> rfl
  | takeSupport session | generateAll session =>
    rw [answer?, asked?]
    cases w.sessions.lookup session <;> rfl
  | newGuard | newSession | joinSession | crate | generate | generateContainer => cases hr

/-- Requests that only read a session leave everything as it is, and the answer goes by the path. -/
theorem answer?_of_reads (w : Workspace) {session : String} (hr : r.reads? = some session) :
    w.answer? r = (w.sessions.lookup session).map fun s => (r.outcome s.crate, w) := by
  cases r with
  | crate | generate | generateContainer =>
    cases hr
    rw [answer?]
    cases w.sessions.lookup session <;> rfl
  | newGuard | newSession | joinSession | claim | takeSupport | generateAll => cases hr

/-- Requests that make something hand out nothing. -/
theorem answer?_of_makes (hr : r.makes = true) (h : w.answer? r = some (a, w')) :
    a = .made ∧ w'.spent = w.spent := by
  cases r with
  | newGuard | newSession =>
    cases h
    exact ⟨rfl, rfl⟩
  | joinSession name path guard =>
    obtain ⟨g, -, hg⟩ := Option.bind_eq_some_iff.mp h
    cases hg
    exact ⟨rfl, rfl⟩
  | claim | crate | takeSupport | generate | generateAll | generateContainer => cases hr

theorem asked?_of_not_claims (w : Workspace) (hr : r.claims = false) : w.asked? r = none := by
  cases r with
  | claim | takeSupport | generateAll => cases hr
  | newGuard | newSession | joinSession | crate | generate | generateContainer => rfl

/-- What any request does to the guards: it claims the one that it asks for, and no other. -/
theorem answer?_cases (h : w.answer? r = some (a, w')) :
    (∃ g, w.asked? r = some g ∧ a.handsOut = (w.claim g).1 ∧ w' = (w.claim g).2) ∨
      w.asked? r = none ∧ a.handsOut = false ∧ w'.spent = w.spent ∧
        (r.makes = false → w' = w) := by
  rcases r.makes_or_claims_or_reads with ⟨hr, hclaims⟩ | hr | ⟨session, hr, hclaims⟩
  · obtain ⟨rfl, hspent⟩ := answer?_of_makes hr h
    exact .inr ⟨w.asked?_of_not_claims hclaims, rfl, hspent, fun hm => by rw [hr] at hm; cases hm⟩
  · rw [w.answer?_of_claims hr, Option.map_eq_some_iff] at h
    obtain ⟨g, hg, hanswer⟩ := h
    cases hanswer
    exact .inl ⟨g, hg, r.handsOut_reply _, rfl⟩
  · rw [w.answer?_of_reads hr, Option.map_eq_some_iff] at h
    obtain ⟨s, -, hanswer⟩ := h
    cases hanswer
    exact .inr ⟨w.asked?_of_not_claims hclaims, r.handsOut_outcome _, rfl, fun _ => rfl⟩

/-- A guard is spent once a request has asked for it. -/
theorem mem_spent_answer? (h : w.answer? r = some (a, w')) :
    g ∈ w'.spent ↔ g ∈ w.spent ∨ w.asked? r = some g := by
  rcases answer?_cases h with ⟨k, hk, -, rfl⟩ | ⟨hnone, -, hspent, -⟩
  · rw [mem_spent_claim, hk, Option.some_inj]
  · rw [hspent, hnone]
    simp

/-- The declarations are handed out to those who ask for a guard that is not spent. -/
theorem handsOut_answer?_iff (h : w.answer? r = some (a, w')) :
    a.handsOut = true ↔ ∃ g, w.asked? r = some g ∧ g ∉ w.spent := by
  rcases answer?_cases h with ⟨k, hk, hhands, -⟩ | ⟨hnone, hhands, -, -⟩
  · rw [hhands, claim_fst_iff]
    constructor
    · intro hspent
      exact ⟨k, hk, hspent⟩
    · rintro ⟨g, hg, hspent⟩
      rwa [Option.some_inj.mp (hk.symm.trans hg)]
  · rw [hhands, hnone]
    simp

/-- What is handed out is the support declarations, and only to those who ask for them and not for
the right to them. -/
theorem support?_of_answer? (h : w.answer? r = some (a, w')) :
    a.support? = Support.handedOut (r.takesSupport && a.handsOut) := by
  rcases r.makes_or_claims_or_reads with ⟨hr, hclaims⟩ | hr | ⟨session, hr, hclaims⟩
  · obtain ⟨rfl, -⟩ := answer?_of_makes hr h
    rw [Request.takesSupport_of_not_claims hclaims]
    rfl
  · rw [w.answer?_of_claims hr, Option.map_eq_some_iff] at h
    obtain ⟨g, -, hanswer⟩ := h
    cases hanswer
    rw [r.support?_reply, r.handsOut_reply]
  · rw [w.answer?_of_reads hr, Option.map_eq_some_iff] at h
    obtain ⟨s, -, hanswer⟩ := h
    cases hanswer
    rw [Request.takesSupport_of_not_claims hclaims, r.support?_outcome]
    rfl

/-- A request is answered just in case what it names exists. -/
theorem isSome_answer?_iff : (w.answer? r).isSome ↔ w.Knows r := by
  cases r with
  | newGuard | newSession => exact ⟨fun _ => trivial, fun _ => rfl⟩
  | joinSession name path guard =>
    rw [Knows, answer?]
    cases w.guards.lookup guard <;> simp
  | claim guard =>
    rw [Knows, w.answer?_of_claims rfl, Option.isSome_map, Option.isSome_iff_exists]
    rfl
  | takeSupport session | generateAll session =>
    rw [Knows, w.answer?_of_claims rfl, Option.isSome_map, asked?, Option.isSome_map,
      Option.isSome_iff_exists]
  | crate session | generate session | generateContainer session =>
    rw [Knows, w.answer?_of_reads rfl, Option.isSome_map, Option.isSome_iff_exists]

/-! ## Guards are new when they are made -/

/-- All guards in use have been made. -/
structure Sound (w : Workspace) : Prop where
  guards : ∀ p ∈ w.guards, p.2 < w.made
  sessions : ∀ p ∈ w.sessions, p.2.guard < w.made

theorem Sound.of_lookup_guards (h : w.Sound) {name : String} (hg : w.guards.lookup name = some g) :
    g < w.made := by
  obtain ⟨before, after, hsplit, -⟩ := List.lookup_eq_some_iff.mp hg
  exact h.guards (name, g) (by rw [hsplit]; exact List.mem_append_right _ List.mem_cons_self)

theorem Sound.of_lookup_sessions (h : w.Sound) {name : String} {s : Session}
    (hs : w.sessions.lookup name = some s) : s.guard < w.made := by
  obtain ⟨before, after, hsplit, -⟩ := List.lookup_eq_some_iff.mp hs
  exact h.sessions (name, s) (by rw [hsplit]; exact List.mem_append_right _ List.mem_cons_self)

theorem Sound.asked?_lt (h : w.Sound) (hg : w.asked? r = some g) : g < w.made := by
  cases r with
  | claim guard => exact h.of_lookup_guards hg
  | takeSupport session | generateAll session =>
    obtain ⟨s, hs, rfl⟩ := Option.map_eq_some_iff.mp hg
    exact h.of_lookup_sessions hs
  | newGuard | newSession | joinSession | crate | generate | generateContainer => cases hg

/-- A request keeps the guards in order, and never makes one again. -/
theorem Sound.answer? (hw : w.Sound) (h : w.answer? r = some (a, w')) :
    w'.Sound ∧ w.made ≤ w'.made := by
  cases r with
  | newGuard name =>
    cases h
    refine ⟨⟨?_, fun p hp => Nat.lt_succ_of_lt (hw.sessions p hp)⟩, Nat.le_succ _⟩
    rintro p (_ | ⟨_, hp⟩)
    · exact Nat.lt_succ_self _
    · exact Nat.lt_succ_of_lt (hw.guards p hp)
  | newSession name path =>
    cases h
    refine ⟨⟨fun p hp => Nat.lt_succ_of_lt (hw.guards p hp), ?_⟩, Nat.le_succ _⟩
    rintro p (_ | ⟨_, hp⟩)
    · exact Nat.lt_succ_self _
    · exact Nat.lt_succ_of_lt (hw.sessions p hp)
  | joinSession name path guard =>
    obtain ⟨g, hg, hanswer⟩ := Option.bind_eq_some_iff.mp h
    cases hanswer
    refine ⟨⟨hw.guards, ?_⟩, Nat.le_refl _⟩
    rintro p (_ | ⟨_, hp⟩)
    · exact hw.of_lookup_guards hg
    · exact hw.sessions p hp
  | claim | takeSupport | generateAll | crate | generate | generateContainer =>
    rcases answer?_cases h with ⟨g, -, -, rfl⟩ | ⟨-, -, -, hsame⟩
    · rw [claim_snd]
      exact ⟨⟨hw.guards, hw.sessions⟩, Nat.le_refl _⟩
    · rw [hsame rfl]
      exact ⟨hw, Nat.le_refl _⟩

/-! ## Guards do not affect each other -/

/-- The workspaces have the same guards and sessions, and the guard `g` is spent in both or in
neither. -/
structure AgreesOn (g : Guard) (w v : Workspace) : Prop where
  guards : v.guards = w.guards
  sessions : v.sessions = w.sessions
  made : v.made = w.made
  spent : g ∈ v.spent ↔ g ∈ w.spent

variable {v : Workspace}

theorem AgreesOn.asked? (h : AgreesOn g w v) (r : Request) : v.asked? r = w.asked? r := by
  cases r <;> simp only [Workspace.asked?, h.guards, h.sessions]

theorem AgreesOn.claim (h : AgreesOn g w v) :
    (v.claim g).1 = (w.claim g).1 ∧ AgreesOn g (w.claim g).2 (v.claim g).2 := by
  constructor
  · rw [Bool.eq_iff_iff, claim_fst_iff, claim_fst_iff, h.spent]
  · constructor
    · rw [claim_snd v, claim_snd w]
      exact h.guards
    · rw [claim_snd v, claim_snd w]
      exact h.sessions
    · rw [claim_snd v, claim_snd w]
      exact h.made
    · rw [mem_spent_claim, mem_spent_claim, h.spent]

/-- A request that makes something has the same effect on the guards and sessions wherever they
are the same. -/
theorem AgreesOn.answer?_of_makes (h : AgreesOn g w v) (hr : r.makes = true)
    (hanswer : w.answer? r = some (a, w')) :
    ∃ v', v.answer? r = some (a, v') ∧ AgreesOn g w' v' := by
  obtain ⟨guards, sessions, made, spent⟩ := w
  obtain ⟨guards', sessions', made', spent'⟩ := v
  obtain ⟨rfl, rfl, rfl, hspent⟩ := h
  cases r with
  | newGuard | newSession =>
    cases hanswer
    exact ⟨_, rfl, rfl, rfl, rfl, hspent⟩
  | joinSession name path guard =>
    obtain ⟨k, hk, hmade⟩ := Option.bind_eq_some_iff.mp hanswer
    cases hmade
    exact ⟨_, Option.bind_eq_some_iff.mpr ⟨k, hk, rfl⟩, rfl, rfl, rfl, hspent⟩
  | claim | crate | takeSupport | generate | generateAll | generateContainer => cases hr

/-- A request for the guard `g` is answered alike in workspaces that agree on it. -/
theorem AgreesOn.answer?_of_asked (h : AgreesOn g w v) (hg : w.asked? r = some g)
    (hanswer : w.answer? r = some (a, w')) :
    ∃ v', v.answer? r = some (a, v') ∧ AgreesOn g w' v' := by
  have hclaims : r.claims = true := by
    by_contra hr
    rw [w.asked?_of_not_claims (Bool.eq_false_iff.mpr hr)] at hg
    cases hg
  rw [w.answer?_of_claims hclaims, hg] at hanswer
  cases hanswer
  obtain ⟨hfirst, hagrees⟩ := h.claim
  refine ⟨(v.claim g).2, ?_, hagrees⟩
  rw [v.answer?_of_claims hclaims, h.asked? r, hg, ← hfirst]
  rfl

/-- A request for another guard, or for none, changes nothing that concerns `g`. -/
theorem AgreesOn.of_other (h : AgreesOn g w v) (hr : r.makes = false) (hg : w.asked? r ≠ some g)
    (hanswer : w.answer? r = some (a, w')) : AgreesOn g w' v := by
  rcases answer?_cases hanswer with ⟨k, hk, -, rfl⟩ | ⟨-, -, -, hsame⟩
  · have hother : ¬ k = g := fun hkg => hg (hkg ▸ hk)
    rw [claim_snd]
    exact ⟨h.guards, h.sessions, h.made, by rw [mem_spent_claim, or_iff_left hother, h.spent]⟩
  · rw [hsame hr]
    exact h

end Workspace

/-! ## Histories -/

/-- A request that has been answered. -/
structure Event where
  /-- The moment of the request. -/
  before : Workspace
  /-- The request. -/
  request : Request
  /-- The answer. -/
  answer : Answer

namespace Event

/-- The guard that is put to use, if there is one. -/
def asked? (e : Event) : Option Guard := e.before.asked? e.request

/-- Whether something is made, or the guard `g` put to use. -/
def concerns (g : Guard) (e : Event) : Bool := e.request.makes || e.asked? == some g

end Event

namespace Workspace

variable {w w' w₁ w₂ : Workspace} {r : Request} {rs : List Request} {a : Answer} {g : Guard}
  {e : Event} {events earlier later : List Event}

/-- The history of requests, and the workspace after it, if all of them are answered. -/
def history? (w : Workspace) : List Request → Option (List Event × Workspace)
  | [] => some ([], w)
  | r :: rs =>
    (w.answer? r).bind fun p => (p.2.history? rs).map fun q => (⟨w, r, p.1⟩ :: q.1, q.2)

theorem history?_cons (w : Workspace) (r : Request) (rs : List Request) :
    w.history? (r :: rs) =
      (w.answer? r).bind fun p => (p.2.history? rs).map fun q => (⟨w, r, p.1⟩ :: q.1, q.2) :=
  rfl

theorem history?_cons_eq_some_iff :
    w.history? (r :: rs) = some (events, w') ↔
      ∃ a w₁ later, w.answer? r = some (a, w₁) ∧ w₁.history? rs = some (later, w') ∧
        events = ⟨w, r, a⟩ :: later := by
  rw [history?_cons, Option.bind_eq_some_iff]
  constructor
  · rintro ⟨p, hp, hq⟩
    obtain ⟨q, hlater, hevents⟩ := Option.map_eq_some_iff.mp hq
    cases hevents
    exact ⟨p.1, p.2, q.1, hp, hlater, rfl⟩
  · rintro ⟨a, w₁, later, ha, hlater, rfl⟩
    exact ⟨(a, w₁), ha, by rw [hlater]; rfl⟩

theorem map_request_history? (h : w.history? rs = some (events, w')) :
    events.map Event.request = rs := by
  induction rs generalizing w events with
  | nil =>
    cases h
    rfl
  | cons r rs ih =>
    obtain ⟨a, w₁, later, -, hlater, rfl⟩ := history?_cons_eq_some_iff.mp h
    rw [List.map_cons, ih hlater]

/-- Every event of a history comes after a history of its own. -/
theorem history?_before (h : w.history? rs = some (earlier ++ e :: later, w')) :
    ∃ w₁, w.history? (earlier.map Event.request) = some (earlier, e.before) ∧
      e.before.answer? e.request = some (e.answer, w₁) := by
  induction earlier generalizing w rs with
  | nil =>
    cases rs with
    | nil => cases h
    | cons r rs =>
      obtain ⟨a, w₁, later', ha, -, hevents⟩ := history?_cons_eq_some_iff.mp h
      cases hevents
      exact ⟨w₁, rfl, ha⟩
  | cons p earlier ih =>
    cases rs with
    | nil => cases h
    | cons r rs =>
      obtain ⟨a, w₁, later', ha, hlater, hevents⟩ := history?_cons_eq_some_iff.mp h
      cases hevents
      obtain ⟨w₂, hearlier, he⟩ := ih hlater
      exact ⟨w₂, history?_cons_eq_some_iff.mpr ⟨a, w₁, earlier, ha, hearlier, rfl⟩, he⟩

/-- A history goes on with any request that is answered. -/
theorem history?_append_singleton (h : w.history? rs = some (events, w₁))
    (ha : w₁.answer? r = some (a, w₂)) :
    w.history? (rs ++ [r]) = some (events ++ [⟨w₁, r, a⟩], w₂) := by
  induction rs generalizing w events with
  | nil =>
    cases h
    exact history?_cons_eq_some_iff.mpr ⟨a, w₂, [], ha, rfl, rfl⟩
  | cons r' rs ih =>
    obtain ⟨a', w', later, ha', hlater, rfl⟩ := history?_cons_eq_some_iff.mp h
    exact history?_cons_eq_some_iff.mpr ⟨a', w', later ++ [_], ha', ih hlater, rfl⟩

/-- The guards that are spent are those that have been asked for. -/
theorem mem_spent_history? (h : w.history? rs = some (events, w')) :
    g ∈ w'.spent ↔ g ∈ w.spent ∨ ∃ e ∈ events, e.asked? = some g := by
  induction rs generalizing w events with
  | nil =>
    cases h
    simp
  | cons r rs ih =>
    obtain ⟨a, w₁, later, ha, hlater, rfl⟩ := history?_cons_eq_some_iff.mp h
    rw [ih hlater, mem_spent_answer? ha, List.exists_mem_cons_iff, or_assoc]
    rfl

theorem Sound.history? (hw : w.Sound) (h : w.history? rs = some (events, w')) :
    w'.Sound ∧ w.made ≤ w'.made ∧ ∀ e ∈ events, ∀ g, e.asked? = some g → g < w'.made := by
  induction rs generalizing w events with
  | nil =>
    cases h
    exact ⟨hw, Nat.le_refl _, fun e he => nomatch he⟩
  | cons r rs ih =>
    obtain ⟨a, w₁, later, ha, hlater, rfl⟩ := history?_cons_eq_some_iff.mp h
    obtain ⟨hw₁, hmade⟩ := hw.answer? ha
    obtain ⟨hw', hmade', hasked⟩ := ih hw₁ hlater
    refine ⟨hw', Nat.le_trans hmade hmade', ?_⟩
    rintro e (_ | ⟨_, he⟩) g hg
    · exact Nat.lt_of_lt_of_le (hw.asked?_lt hg) (Nat.le_trans hmade hmade')
    · exact hasked e he g hg

/-- The requests that concern a guard are answered as they would be without all others. -/
theorem AgreesOn.history? {v : Workspace} (hagrees : AgreesOn g w v)
    (h : w.history? rs = some (events, w')) :
    ∃ alone v',
      v.history? ((events.filter (Event.concerns g)).map Event.request) = some (alone, v') ∧
        alone.map Event.answer = (events.filter (Event.concerns g)).map Event.answer ∧
        AgreesOn g w' v' := by
  induction rs generalizing w v events with
  | nil =>
    cases h
    exact ⟨[], v, rfl, rfl, hagrees⟩
  | cons r rs ih =>
    obtain ⟨a, w₁, later, ha, hlater, rfl⟩ := history?_cons_eq_some_iff.mp h
    by_cases hconcerns : Event.concerns g ⟨w, r, a⟩ = true
    · -- the request stands in both histories
      rw [List.filter_cons_of_pos hconcerns, List.map_cons, List.map_cons]
      rw [Event.concerns, Bool.or_eq_true, beq_iff_eq] at hconcerns
      obtain ⟨v₁, hv₁, hagrees₁⟩ : ∃ v', v.answer? r = some (a, v') ∧ AgreesOn g w₁ v' :=
        hconcerns.elim (hagrees.answer?_of_makes · ha) (hagrees.answer?_of_asked · ha)
      obtain ⟨alone, v', halone, hanswers, hagrees'⟩ := ih hagrees₁ hlater
      refine ⟨⟨v, r, a⟩ :: alone, v', ?_, ?_, hagrees'⟩
      · exact history?_cons_eq_some_iff.mpr ⟨a, v₁, alone, hv₁, halone, rfl⟩
      · rw [List.map_cons, hanswers]
    · -- the request is left out, and has not changed anything that matters
      rw [List.filter_cons_of_neg hconcerns]
      rw [Event.concerns, Bool.or_eq_true, beq_iff_eq, not_or, Bool.not_eq_true] at hconcerns
      exact ih (hagrees.of_other hconcerns.1 hconcerns.2 ha) hlater

/-! ## New sessions -/

/-- A workspace with nothing in it but a session made anew, with the name and the path of
another. -/
def renewed? (w : Workspace) (name : String) : Option Workspace :=
  (w.sessions.lookup name).bind fun s =>
    (({} : Workspace).answer? (.newSession name s.crate)).map Prod.snd

theorem exists_renewed? {name : String} {s : Session} (hs : w.sessions.lookup name = some s) :
    ∃ new, w.renewed? name = some new ∧
      ∀ r : Request, r.reads? = some name → new.answer? r = some (r.outcome s.crate, new) := by
  refine ⟨{ sessions := [(name, ⟨s.crate, 0⟩)], made := 1 }, ?_, ?_⟩
  · rw [renewed?, hs]
    rfl
  · intro r hr
    rw [answer?_of_reads _ hr, List.lookup_cons_self]
    rfl

end Workspace

/-- What is generated is what a new session generates, for many fields in the order in which they
come. -/
structure Event.LikeNew (e : Event) : Prop where
  generate : ∀ name schema, e.request = .generate name schema →
    ∃ new, e.before.renewed? name = some new ∧ new.answer? e.request = some (e.answer, new)
  generateContainer : ∀ name container schemas,
    e.request = .generateContainer name container schemas →
      ∃ new, e.before.renewed? name = some new ∧ new.answer? e.request = some (e.answer, new)
  generateAll : ∀ name schemas, e.request = .generateAll name schemas →
    ∃ new outcomes, e.before.renewed? name = some new ∧
      e.answer = .fields (Support.handedOut e.answer.handsOut) outcomes ∧
      List.Forall₂ (fun schema outcome =>
        new.answer? (.generate name schema) = some (.field outcome, new)) schemas outcomes

namespace Workspace

variable {w w' : Workspace} {r : Request} {a : Answer}

theorem exists_renewed?_of_reads {name : String} (hr : r.reads? = some name)
    (h : w.answer? r = some (a, w')) :
    ∃ new, w.renewed? name = some new ∧ new.answer? r = some (a, new) := by
  rw [w.answer?_of_reads hr, Option.map_eq_some_iff] at h
  obtain ⟨s, hs, hanswer⟩ := h
  cases hanswer
  obtain ⟨new, hnew, hreads⟩ := exists_renewed? hs
  exact ⟨new, hnew, hreads r hr⟩

theorem likeNew_of_answer? (h : w.answer? r = some (a, w')) : Event.LikeNew ⟨w, r, a⟩ where
  generate := by
    rintro name schema rfl
    exact exists_renewed?_of_reads rfl h
  generateContainer := by
    rintro name container schemas rfl
    exact exists_renewed?_of_reads rfl h
  generateAll := by
    rintro name schemas rfl
    rw [w.answer?_of_claims rfl, asked?, Option.map_map, Option.map_eq_some_iff] at h
    obtain ⟨s, hs, hanswer⟩ := h
    cases hanswer
    obtain ⟨new, hnew, hreads⟩ := exists_renewed? hs
    refine ⟨new, schemas.map Schema.generate, hnew, ?_, ?_⟩
    · rw [Request.handsOut_reply]
      rfl
    rw [List.forall₂_map_right_iff, List.forall₂_same]
    intro schema _
    exact hreads (.generate name schema) rfl

/-! ## The main result -/

/-- From an empty workspace on, in any order of requests and however the sessions share their
guards, the support declarations are handed out to the first request for each guard and to no
later one. A guard that is made has not been asked for before. The requests for one guard are
answered as they would be without those for all others, what is generated is what a new session
generates, and there is always an answer if what the request names exists. -/
theorem support_handed_out_once (requests : List Request) (events : List Event) (w : Workspace)
    (h : ({} : Workspace).history? requests = some (events, w)) :
    events.map Event.request = requests ∧
    (∀ earlier e later, events = earlier ++ e :: later →
      (e.answer.handsOut = true ↔
        ∃ g, e.asked? = some g ∧ ∀ p ∈ earlier, p.asked? ≠ some g) ∧
      e.answer.support? =
        (if e.request.takesSupport && e.answer.handsOut then some Support.tokens else none) ∧
      ∀ p ∈ earlier, ∀ g, p.asked? = some g → g < e.before.made) ∧
    (∀ g, ∃ alone v,
      ({} : Workspace).history? ((events.filter (Event.concerns g)).map Event.request) =
          some (alone, v) ∧
        alone.map Event.answer = (events.filter (Event.concerns g)).map Event.answer ∧
        (g ∈ v.spent ↔ g ∈ w.spent)) ∧
    (∀ e ∈ events, e.LikeNew) ∧
    ∀ r, w.Knows r → ∃ a w',
      ({} : Workspace).history? (requests ++ [r]) = some (events ++ [⟨w, r, a⟩], w') := by
  have hsound : ({} : Workspace).Sound := ⟨fun _ hp => (nomatch hp), fun _ hp => (nomatch hp)⟩
  refine ⟨map_request_history? h, ?_, ?_, ?_, ?_⟩
  · rintro earlier e later rfl
    obtain ⟨w₁, hbefore, he⟩ := history?_before h
    obtain ⟨-, -, hmade⟩ := hsound.history? hbefore
    refine ⟨?_, support?_of_answer? he, hmade⟩
    -- at that moment the guards are spent that earlier requests asked for
    have hunspent : ∀ g, g ∉ e.before.spent ↔ ∀ p ∈ earlier, p.asked? ≠ some g := by
      intro g
      rw [mem_spent_history? hbefore]
      simp
    rw [handsOut_answer?_iff he]
    simp only [hunspent]
    rfl
  · intro g
    obtain ⟨alone, v, halone, hanswers, hagrees⟩ :=
      AgreesOn.history? (g := g) ⟨rfl, rfl, rfl, Iff.rfl⟩ h
    exact ⟨alone, v, halone, hanswers, hagrees.spent⟩
  · intro e he
    obtain ⟨earlier, later, rfl⟩ := List.append_of_mem he
    obtain ⟨w₁, -, hanswer⟩ := history?_before h
    exact likeNew_of_answer? hanswer
  · intro r hr
    obtain ⟨⟨a, w'⟩, ha⟩ := Option.isSome_iff_exists.mp (isSome_answer?_iff.mpr hr)
    exact ⟨a, w', history?_append_singleton h ha⟩

/-- Two sessions of one run and one of another, which generate a flag and something without bits. -/
def twoRuns : List Request :=
  let path := Path.ofName ⟨"packed", false⟩
  [.newGuard "run", .joinSession "first" path "run", .joinSession "second" path "run",
    .newSession "apart" path, .generate "first" flagged, .takeSupport "second",
    .generateAll "first" [flagged, bare], .generateContainer "second" flagged.container [flagged],
    .takeSupport "apart", .claim "run"]
where
  /-- A byte with a flag. -/
  flagged : Schema := Sample.field "Data" ⟨"i", false⟩ (Sample.u .w8) [Sample.flag "set"]
  /-- A byte without sub-fields. -/
  bare : Schema := Sample.field "Data" ⟨"j", false⟩ (Sample.u .w8) []

/-- Each run has the declarations once, at its first request for them, and all that is generated is
what new sessions generate. -/
theorem support_handed_out_once_twoRuns :
    ∃ events w, ({} : Workspace).history? twoRuns = some (events, w) ∧
      events.map (fun e => e.answer.handsOut) =
        [false, false, false, false, false, true, false, false, true, false] ∧
      (∀ e ∈ events, e.LikeNew) ∧
      (∃ e ∈ events, e.answer.support? = some Support.tokens) ∧
      (∃ e ∈ events, e.request = .generate "first" twoRuns.flagged ∧
        ∃ new, e.before.renewed? "first" = some new ∧
          new.answer? e.request = some (e.answer, new)) ∧
      (∃ e ∈ events, e.request =
          .generateContainer "second" twoRuns.flagged.container [twoRuns.flagged] ∧
        ∃ new, e.before.renewed? "second" = some new ∧
          new.answer? e.request = some (e.answer, new)) ∧
      ∃ e ∈ events, ∃ new outcomes, e.before.renewed? "first" = some new ∧
        e.answer = .fields none outcomes ∧
        List.Forall₂ (fun schema outcome =>
          new.answer? (.generate "first" schema) = some (.field outcome, new))
          [twoRuns.flagged, twoRuns.bare] outcomes := by
  obtain ⟨-, -, -, hnew, -⟩ := support_handed_out_once twoRuns _ _ rfl
  have hfield := hnew _ (List.mem_of_getElem? (i := 4) rfl)
  have hall := hnew _ (List.mem_of_getElem? (i := 6) rfl)
  have hcontainer := hnew _ (List.mem_of_getElem? (i := 7) rfl)
  refine ⟨_, _, rfl, rfl, hnew, ?_, ?_, ?_, ?_⟩
  · exact ⟨_, List.mem_of_getElem? (i := 5) rfl, rfl⟩
  · exact ⟨_, List.mem_of_getElem? (i := 4) rfl, rfl, hfield.generate _ _ rfl⟩
  · exact ⟨_, List.mem_of_getElem? (i := 7) rfl, rfl, hcontainer.generateContainer _ _ _ rfl⟩
  · obtain ⟨new, outcomes, hrenewed, hanswer, houtcomes⟩ := hall.generateAll _ _ rfl
    exact ⟨_, List.mem_of_getElem? (i := 6) rfl, new, outcomes, hrenewed, hanswer, houtcomes⟩

end Workspace

end PackedFields
