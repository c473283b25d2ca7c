import Longbox.Proofs.Session.Refusal
import Longbox.Proofs.Session.Finality

/-! What an action makes of a machine, said once.

`Machine.Prelude` has a constructor for each way in which a session goes on before its download, with
the machine that comes of it, and `Machine.Sequel` one for each way after that. What is told of a
session, and when, is proved by cases on them. -/
namespace Longbox
namespace Machine

/-- The catalog has been planned. -/
def withPlan (m : Machine) (volumes : Archive → Option String) : Machine :=
  { m with session := m.session.planned m.disk volumes }

/-- The selection has been applied. -/
def withSelection (m : Machine) : Machine :=
  { m with session := m.session.selected }

theorem toDownload_withSelection {m : Machine} (h : m.terms.toDownload = []) :
    m.withSelection.terms.toDownload = [] := by
  have h : m.session.plan.toDownload = [] := h
  simp only [terms, withSelection, Session.selected, Plan.select]
  split <;> simp [h]

/-- A download of all that is planned, before its first chapter. -/
def opening (m : Machine) (token : Nat) : Download where
  token := token
  planned := m.session.plan.toDownload.length
  remaining := m.session.plan.toDownload
  store := { slots := Download.storeSlots m.session.request.config.workers }
  reported := m.now

/-- A new call comes to prepare the session: a preparation, or a run with its token. -/
inductive Begins (m : Machine) : Operation → Option Nat → Prop where
  | prepares : m.Begins .prepare none
  | runs {parent : Nat} (hs : m.stores (.run parent) = true)
      (hc : (m.opened (.run parent)).isCancelled m.tokens.length = false) :
      m.Begins (.run parent) (some m.tokens.length)

/-- The call `id` goes on with a session that is prepared. -/
inductive Proceeds (m : Machine) (id : Nat) : Option Nat → Machine → Prop where
  | answers {token : Option Nat} {r : CallResult} (ht : token = none ∨ m.session.outcome.isSome = true)
      (hr : ∀ o, r = .ok (some o) → m.session.outcome = some o) :
      m.Proceeds id token (m.answer id r)
  | releases {t : Nat} (ho : m.session.outcome = none)
      (hd : m.withSelection.terms.toDownload = []) :
      m.Proceeds id (some t)
        ((m.withSelection.setLifecycle .waiting).release id (some t) false .emptySelection)
  | opens {t : Nat} (ho : m.session.outcome = none)
      (hd : m.withSelection.terms.toDownload ≠ []) :
      m.Proceeds id (some t) ((m.withSelection.setLifecycle .downloading).nextChapter id
        (m.withSelection.opening t))

/-- How a session goes on that has not begun to download. -/
inductive Prelude (m : Machine) : Action → Machine → Prop where
  | rests {a : Action} {m' : Machine} (ha : a.call? = none) (k : m.Keeps m') : m.Prelude a m'
  | answers {op : Operation} {m₁ : Machine} {r : CallResult} (k : m.Keeps m₁)
      (hr : ∀ o, r = .ok (some o) → m.session.outcome = some o) :
      m.Prelude (.call op) (m₁.answer m.callCount r)
  | cancels {parent : Nat} (hs : m.stores (.run parent) = true)
      (hc : (m.opened (.run parent)).isCancelled m.tokens.length = true) :
      m.Prelude (.call (.run parent))
        (((m.opened (.run parent)).setOutcome .cancelled).answer m.callCount
          (.ok (some .cancelled)))
  | asks {op : Operation} {token : Option Nat} (hb : m.Begins op token)
      (hp : m.session.isPrepared = false) (hl : m.session.lifecycle = .queued)
      (ha : m.session.request.asksPreferences = true) :
      m.Prelude (.call op) ((((m.opened op).setLifecycle .loading).note .preferencesAsked).suspend
        ⟨m.callCount, token, .preferences⟩)
  | lists {op : Operation} {token : Option Nat} (hb : m.Begins op token)
      (hp : m.session.isPrepared = false) (hl : m.session.lifecycle = .queued)
      (ha : m.session.request.asksPreferences = false) :
      m.Prelude (.call op) (((m.opened op).setLifecycle .loading).listCatalog m.callCount token none)
  | proceeds {op : Operation} {token : Option Nat} {m' : Machine} (hb : m.Begins op token)
      (hp : m.session.isPrepared = true) (h : (m.opened op).Proceeds m.callCount token m') :
      m.Prelude (.call op) m'
  | prefers {c : Call} {a : Action} (ha : a.call? = some c.id) (hc : c ∈ m.calls)
      (hs : c.stage = .preferences) (preferences : Option TagPreferences) :
      m.Prelude a (m.listCatalog c.id c.token preferences)
  | plansNothing {c : Call} {a : Action} {volumes : Archive → Option String}
      (ha : a.call? = some c.id) (hc : c ∈ m.calls) (hs : c.stage = .planning)
      (hd : (m.withPlan volumes).terms.toDownload = []) :
      m.Prelude a (((m.withPlan volumes).setLifecycle .waiting).release c.id c.token false .emptyPlan)
  | plans {c : Call} {a : Action} {volumes : Archive → Option String} {m' : Machine}
      (ha : a.call? = some c.id) (hc : c ∈ m.calls) (hs : c.stage = .planning)
      (hd : (m.withPlan volumes).terms.toDownload ≠ [])
      (h : ((m.withPlan volumes).setLifecycle m.session.plannedLifecycle).Proceeds c.id c.token m') :
      m.Prelude a m'
  | released {c : Call} {a : Action} {reason : ReleaseReason} {r : CallResult}
      (ha : a.call? = some c.id) (hc : c ∈ m.calls) (hs : c.stage = .releasing reason)
      (hr : reason = .emptyPlan ∨ reason = .emptySelection)
      (ho : ∀ o, r = .ok (some o) → o = .nothingToDownload) :
      m.Prelude a ((m.setOutcome .nothingToDownload).answer c.id r)

/-- How a session goes on that is past the beginning of its download. -/
inductive Sequel (m : Machine) : Phase → Action → Machine → Prop where
  | rests {p : Phase} {a : Action} {m' : Machine} (ha : a.call? = none) (k : m.Keeps m') :
      m.Sequel p a m'
  | answers {p : Phase} {op : Operation} {m₁ : Machine} {r : CallResult} (k : m.Keeps m₁)
      (hr : ∀ o, r = .ok (some o) → m.session.outcome = some o) :
      m.Sequel p (.call op) (m₁.answer m.callCount r)
  | moves {id : Nat} {d : Download} {move : Move} {m' : Machine}
      (hm : m.moveDownload? id d move = some m') :
      m.Sequel (.downloading id d) (.move id move) m'
  | removes {id token : Nat} {cause : Error} {left : List String} {a : Action} :
      m.Sequel (.removing id token cause left) a
        (m.removeNext ⟨id, some token, .removing cause left⟩ cause left)
  | released {id token : Nat} {reason : ReleaseReason} {a : Action}
      (hr : reason.outcome.endsDownload = true) :
      m.Sequel (.releasing id token reason) a (m.released id (some token) reason)

variable {disk : Disk} {m m' : Machine} {a : Action}

/-! ### Every step is one of these -/

theorem keeps_opened (m : Machine) (op : Operation) : m.Keeps (m.opened op) := by
  have counted := Keeps.count m 1
  rcases m.opened_cases op with ⟨-, own, -, h⟩ | ⟨-, h⟩
  · rw [h]
    exact counted.trans (.addToken _ own _)
  · rw [h]
    exact counted

theorem proceeds_afterPreparation (m : Machine) (id : Nat) (token : Option Nat) :
    m.Proceeds id token (m.afterPreparation id token) := by
  unfold afterPreparation
  cases token with
  | none => exact .answers (.inl rfl) nofun
  | some t =>
    cases ho : m.session.outcome with
    | some outcome =>
      exact .answers (.inr (by rw [ho]; rfl)) fun o hr => by
        rw [ho]
        injection hr
    | none =>
      dsimp only
      unfold startDownload
      dsimp only
      by_cases hd : m.session.selected.plan.toDownload = []
      · rw [if_pos (by simp [hd])]
        exact .releases ho hd
      · rw [if_neg (by simp [hd])]
        exact .opens ho hd

theorem Begins.prelude {op : Operation} {token : Option Nat} (hb : m.Begins op token) :
    m.Prelude (.call op) ((m.opened op).prepare m.callCount token) := by
  have k := m.keeps_opened op
  unfold prepare
  cases hp : m.session.isPrepared with
  | true =>
    rw [if_pos (k.prepared.trans hp)]
    exact .proceeds hb hp (proceeds_afterPreparation ..)
  | false =>
    rw [if_neg (by simp [k.prepared, hp]), k.lifecycle]
    split
    · exact .answers k nofun
    · rename_i hl
      have hl : m.session.lifecycle = .queued := by simpa using hl
      dsimp only
      rw [request_setLifecycle, k.request]
      split
      · rename_i ha
        exact .asks hb hp hl ha
      · rename_i ha
        exact .lists hb hp hl (by simpa using ha)

theorem prelude_begin (m : Machine) (op : Operation) : m.Prelude (.call op) (m.begin op) := by
  have answered {op : Operation}
      (h : ∃ m₁ r, m.Keeps m₁ ∧ m.begin op = m₁.answer m.callCount r ∧
        ∀ o, r = .ok (some o) → m.session.outcome = some o) : m.Prelude (.call op) (m.begin op) := by
    obtain ⟨m₁, r, k, he, hr⟩ := h
    rw [he]
    exact .answers k hr
  cases op with
  | prepare => exact Begins.prelude .prepares
  | run parent =>
    cases hs : m.stores (.run parent) with
    | false =>
      refine answered (begin_settled _ nofun ?_)
      cases ho : m.session.outcome with
      | some o => exact .inl rfl
      | none => exact .inr (by simpa [stores, ho] using hs)
    | true =>
      rw [begin_run hs]
      split
      · rename_i hc
        exact .cancels hs hc
      · rename_i hc
        exact Begins.prelude (.runs hs (by simpa using hc))
  | select ids => exact answered (m.begin_select ids)
  | cancel => exact answered m.begin_cancel

theorem Fresh.prelude (h : m.Fresh disk) (hs : m.step? a = some m') : m.Prelude a m' := by
  rcases step?_cases hs with ⟨op, rfl, rfl⟩ | ⟨ha, -, k⟩ | ⟨c, hc, ha, hstep⟩
  · exact m.prelude_begin op
  · exact .rests ha k
  · rcases h.stepCall?_cases hc hstep with ⟨hstage, preferences, rfl⟩ | ⟨hstage, volumes, rfl⟩ |
      ⟨reason, empty, hstage, rfl⟩
    · exact .prefers ha hc hstage preferences
    · unfold Machine.makePlan
      dsimp only
      have empty : (m.session.planned m.disk volumes).plan.isEmpty = true ↔
          (m.withPlan volumes).terms.toDownload = [] := List.isEmpty_iff
      split
      · rename_i hd
        exact .plansNothing ha hc hstage (empty.mp hd)
      · rename_i hd
        exact .plans ha hc hstage (fun hnil => hd (empty.mpr hnil))
          (proceeds_afterPreparation (setLifecycle (m.withPlan volumes) _) c.id c.token)
    · obtain ⟨r, he, hr⟩ := m.released_empty c.id c.token empty
      rw [he]
      exact .released ha hc hstage empty hr

theorem At.sequel {p : Phase} (h : m.At disk p) (hp : p ≠ .fresh) (hs : m.step? a = some m') :
    m.Sequel p a m' := by
  have settled (prepared : m.session.isPrepared = true)
      (ho : m.session.outcome.isSome = true ∨ m.session.isRunning = true) {p : Phase} :
      m.Sequel p a m' ∨ ∃ c ∈ m.calls, a.call? = some c.id ∧ m.stepCall? c a = some m' := by
    rcases step?_cases hs with ⟨op, rfl, rfl⟩ | ⟨ha, -, k⟩ | hcall
    · obtain ⟨m₁, r, k, he, hr⟩ := begin_settled op (fun _ => prepared) ho
      rw [he]
      exact .inl (.answers k hr)
    · exact .inl (.rests ha k)
    · exact .inr hcall
  have running {c : Call} (hr : m.Runs c) {p : Phase} :
      m.Sequel p a m' ∨ a.call? = some c.id ∧ m.stepCall? c a = some m' := by
    refine (settled hr.prepared (.inr hr.running)).imp_right fun ⟨c', hc, hstep⟩ => ?_
    exact hr.eq_of_mem hc ▸ hstep
  cases p with
  | fresh => exact absurd rfl hp
  | downloading id d =>
    rcases running h.runs with hseq | ⟨ha, hstep⟩
    · exact hseq
    cases a with
    | move call move =>
      obtain rfl : call = id := Option.some.inj ha
      exact .moves hstep
    | _ => simp [Machine.stepCall?] at hstep
  | removing id token cause left =>
    rcases running h with hseq | ⟨-, hstep⟩
    · exact hseq
    cases a with
    | removeNext call =>
      obtain rfl := Option.some.inj hstep
      exact .removes
    | _ => simp [Machine.stepCall?] at hstep
  | releasing id token reason =>
    rcases running h.1 with hseq | ⟨-, hstep⟩
    · exact hseq
    cases a with
    | released call result =>
      obtain rfl := Option.some.inj hstep
      exact .released h.2
    | _ => simp [Machine.stepCall?] at hstep
  | ended o =>
    rcases settled h.prepared (.inl (by rw [h.ended]; rfl)) with hseq | ⟨c, hc, -⟩
    · exact hseq
    · simp [h.calls] at hc

end Machine
end Longbox
