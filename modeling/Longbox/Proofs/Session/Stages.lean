import Longbox.Proofs.Session.Announcement

/-! The stages that a session goes through.

The stages of a session are the first of one of three routes, and what is asked to make the plan is
asked once (`Machine.Staged`). `stages_course` puts that together, with what listeners hear of it, for
any two points of a course of actions. -/
namespace Longbox

/-- The ways that a session can go: it downloads, or it finds that the selection leaves nothing. -/
def Lifecycle.routes : List (List Lifecycle) :=
  [[loading, ready, downloading, cleanup], [loading, waiting, downloading, cleanup],
    [loading, ready, waiting]]

/-- What a session of the request has to ask for. -/
def Request.lookups (request : Request) : List Happening :=
  if request.asksPreferences then [.preferencesAsked, .catalogListed] else [.catalogListed]

namespace Machine

variable {disk : Disk} {m m' m₁ : Machine} {a : Action} {p p' : Phase} {id : Nat} {d : Download}
  {token : Option Nat}

/-! ### The stages are those of a route -/

/-- The session has gone through the stages `stages`, and `asked` has been asked for. -/
structure Stands (m : Machine) (stages : List Lifecycle) (asked : List Happening) : Prop where
  lifecycle : m.session.lifecycle = stages.getLastD .queued
  changes : Journal.changes m.journal = stages.map (m.session.request.id, ·)
  lookups : Journal.lookups m.journal = asked

section Stands
variable {stages : List Lifecycle} {asked : List Happening}

theorem Stands.pauses (h : m.Stands stages asked) (hp : m.Pauses m') : m'.Stands stages asked where
  lifecycle := hp.lifecycle.trans h.lifecycle
  changes := by rw [hp.changes, h.changes, hp.request]
  lookups := hp.lookups.trans h.lookups

/-- Collaborators are asked. -/
theorem Stands.ask (h : m.Stands stages asked) (x : Happening) (hx : x.changed? = none)
    (hl : x.isLookup = true) : (m.note x).Stands stages (asked ++ [x]) where
  lifecycle := h.lifecycle
  changes := by simpa [Machine.note, Session.note, hx] using h.changes
  lookups := by simp [Machine.note, hl, h.lookups]

theorem Stands.setLifecycle (h : m.Stands stages asked) {l : Lifecycle}
    (hl : stages.getLastD .queued ≠ l) : (m.setLifecycle l).Stands (stages ++ [l]) asked := by
  unfold Machine.setLifecycle
  rw [if_neg (h.lifecycle ▸ hl)]
  constructor
  · simp [send, Machine.note, Session.note]
  · simp [send, Machine.note, Session.note, Happening.changed?, h.changes]
  · simp [send, Machine.note, Happening.isLookup, h.lookups]

theorem Stands.setLifecycle_self (h : m.Stands stages asked) {l : Lifecycle}
    (hl : stages.getLastD .queued = l) : (m.setLifecycle l).Stands stages asked := by
  unfold Machine.setLifecycle
  rw [if_pos (h.lifecycle.trans hl)]
  exact h

end Stands

/-- The session is prepared and has not come to download. -/
inductive Plans (m : Machine) : Prop where
  | planned {l : Lifecycle} (hl : l = .waiting ∨ l = .ready)
      (h : m.Stands [.loading, l] m.session.request.lookups)
  | emptied (h : m.Stands [.loading, .ready, .waiting] m.session.request.lookups)
      (hd : m.terms.toDownload = [])

/-- The session downloads or has downloaded. -/
inductive Advances (m : Machine) : Prop where
  | downloads {l : Lifecycle} (hl : l = .waiting ∨ l = .ready)
      (h : m.Stands [.loading, l, .downloading] m.session.request.lookups)
  | closes {l : Lifecycle} (hl : l = .waiting ∨ l = .ready)
      (h : m.Stands [.loading, l, .downloading, .cleanup] m.session.request.lookups)

/-- The call waits for preferences, or for the plan when all has been asked for. -/
def Asks (request : Request) (asked : List Happening) (c : Call) : Prop :=
  match c.stage with
  | .preferences => request.asksPreferences = true ∧ asked = [.preferencesAsked]
  | _ => asked = request.lookups

/-- How far a session has gone on one of the routes. -/
inductive Staged (m : Machine) : Prop where
  | queued (h : m.Stands [] [])
  | loading {asked : List Happening} (h : m.Stands [.loading] asked)
      (ha : asked <+: m.session.request.lookups)
      (hc : ∀ c ∈ m.calls, Asks m.session.request asked c)
  | plans (h : m.Plans)
  | advances (h : m.Advances)

theorem Plans.pauses (h : m.Plans) (hp : m.Pauses m')
    (hd : m'.terms.toDownload = m.terms.toDownload) : m'.Plans := by
  cases h with
  | planned hl h => exact .planned hl (hp.request ▸ h.pauses hp)
  | emptied h hnil => exact .emptied (hp.request ▸ h.pauses hp) (hd.trans hnil)

theorem Advances.pauses (h : m.Advances) (hp : m.Pauses m') : m'.Advances := by
  cases h with
  | downloads hl h => exact .downloads hl (hp.request ▸ h.pauses hp)
  | closes hl h => exact .closes hl (hp.request ▸ h.pauses hp)

theorem Staged.pauses (h : m.Staged) (hp : m.Pauses m') (hc : ∀ c ∈ m'.calls, c ∈ m.calls)
    (hd : m'.terms.toDownload = m.terms.toDownload) : m'.Staged := by
  cases h with
  | queued h => exact .queued (h.pauses hp)
  | loading h ha hcalls =>
    exact .loading (h.pauses hp) (hp.request ▸ ha) fun c hmem => hp.request ▸ hcalls c (hc c hmem)
  | plans h => exact .plans (h.pauses hp hd)
  | advances h => exact .advances (h.pauses hp)

theorem Advances.setLifecycle (h : m.Advances) : (m.setLifecycle .cleanup).Advances := by
  have request := m.request_setLifecycle .cleanup
  cases h with
  | downloads hl h => exact .closes hl (request ▸ h.setLifecycle nofun)
  | closes hl h => exact .closes hl (request ▸ h.setLifecycle_self rfl)

theorem Advances.nextChapter (h : m.Advances) (id : Nat) (d : Download) :
    (m.nextChapter id d).Advances := by
  rcases m.voice_nextChapter id d with hv | hv
  · exact h.pauses (.of_voice hv)
  · exact h.setLifecycle.pauses (.of_voice hv)

/-- A prepared session waits on, is released or begins to download. -/
theorem Plans.proceeds (h : m.Plans) (hp : m.Proceeds id token m') : m'.Staged := by
  have selected : m.Pauses m.withSelection := ⟨rfl, rfl, rfl, rfl⟩
  have request (l : Lifecycle) :
      (m.withSelection.setLifecycle l).session.request = m.session.request :=
    request_setLifecycle ..
  cases hp with
  | answers => exact .plans (h.pauses ((Pauses.refl m).answer ..) rfl)
  | @releases t ho hd =>
    have released := (Pauses.refl (m.withSelection.setLifecycle .waiting)).release id (some t)
      false .emptySelection
    have nothing : (m.withSelection.setLifecycle .waiting).terms.toDownload = [] :=
      (toDownload_setLifecycle ..).trans hd
    suffices waits : (m.withSelection.setLifecycle .waiting).Plans from
      .plans (waits.pauses released rfl)
    cases h with
    | planned hl h =>
      rcases hl with rfl | rfl
      · exact .planned (.inl rfl) (request _ ▸ (h.pauses selected).setLifecycle_self rfl)
      · exact .emptied (request _ ▸ (h.pauses selected).setLifecycle nofun) nothing
    | emptied h => exact .emptied (request _ ▸ (h.pauses selected).setLifecycle_self rfl) nothing
  | opens ho hd =>
    cases h with
    | @planned l hl h =>
      have begun : (m.withSelection.setLifecycle .downloading).Advances :=
        .downloads hl (request _ ▸ (h.pauses selected).setLifecycle
          (by rcases hl with rfl | rfl <;> nofun))
      exact .advances (begun.nextChapter ..)
    | emptied _ hnil => exact absurd (toDownload_withSelection hnil) hd

/-- A session that is prepared, or is being prepared, is on its way. -/
theorem Staged.plans_of_prepared (h : m.Staged) (hf : m.Fresh disk)
    (hp : m.session.isPrepared = true) : m.Plans := by
  have stage : m.session.lifecycle = .waiting ∨ m.session.lifecycle = .ready := by
    cases hf.prepares with
    | queued hp' | loading hp' =>
      rw [hp] at hp'
      cases hp'
    | prepared _ hl => exact hl
  cases h with
  | queued h => simp [h.lifecycle] at stage
  | loading h => simp [h.lifecycle] at stage
  | plans h => exact h
  | advances h => rcases h with ⟨-, h⟩ | ⟨-, h⟩ <;> simp [h.lifecycle] at stage

theorem Staged.queued_of_lifecycle (h : m.Staged) (hl : m.session.lifecycle = .queued) :
    m.Stands [] [] := by
  cases h with
  | queued h => exact h
  | loading h => simp [h.lifecycle] at hl
  | plans h =>
    rcases h with ⟨rfl | rfl, h⟩ | ⟨h, -⟩ <;> simp [h.lifecycle] at hl
  | advances h => rcases h with ⟨-, h⟩ | ⟨-, h⟩ <;> simp [h.lifecycle] at hl

theorem Staged.asks_of_waiting (h : m.Staged) (hf : m.Fresh disk) {c : Call} (hc : c ∈ m.calls)
    (hs : c.stage = .preferences ∨ c.stage = .planning) :
    ∃ asked, m.Stands [.loading] asked ∧ Asks m.session.request asked c := by
  obtain ⟨-, hl, -⟩ := hf.alone hc hs
  cases h with
  | queued h => simp [h.lifecycle] at hl
  | loading h _ hcalls => exact ⟨_, h, hcalls c hc⟩
  | plans h =>
    rcases h with ⟨rfl | rfl, h⟩ | ⟨h, -⟩ <;> simp [h.lifecycle] at hl
  | advances h => rcases h with ⟨-, h⟩ | ⟨-, h⟩ <;> simp [h.lifecycle] at hl

/-- The catalog is listed when nothing else is to be asked for. -/
theorem Stands.listCatalog {asked : List Happening} (h : m.Stands [.loading] asked)
    (ha : asked ++ [.catalogListed] = m.session.request.lookups)
    (hc : ∀ c ∈ m.calls, c.id = id) (preferences : Option TagPreferences) :
    (m.listCatalog id token preferences).Staged := by
  have listed := h.ask .catalogListed rfl rfl
  refine .loading ⟨listed.lifecycle, listed.changes, listed.lookups⟩ (ha ▸ List.prefix_rfl)
    fun c hmem => ?_
  rcases List.mem_cons.mp hmem with rfl | hmem
  · exact ha
  · obtain ⟨hmem, hne⟩ := List.mem_filter.mp hmem
    simp [hc c hmem] at hne

/-- Nobody waits when the first call comes to prepare the session. -/
theorem Staged.loads (h : m.Staged) (hf : m.Fresh disk) (hp : m.session.isPrepared = false)
    (hl : m.session.lifecycle = .queued) (op : Operation) :
    ((m.opened op).setLifecycle .loading).Stands [.loading] [] ∧
      (m.opened op).calls = [] ∧
      ((m.opened op).setLifecycle .loading).session.request = m.session.request := by
  have k := m.keeps_opened op
  refine ⟨((h.queued_of_lifecycle hl).pauses k.pauses).setLifecycle (by simp), ?_, ?_⟩
  · exact k.calls.trans (hf.calls_eq_nil hp hl)
  · exact (request_setLifecycle ..).trans k.request

/-- All has been asked for when the plan is made. -/
theorem Staged.withPlan (h : m.Staged) (hf : m.Fresh disk) {c : Call} (hc : c ∈ m.calls)
    (hs : c.stage = .planning) (volumes : Archive → Option String) {l : Lifecycle}
    (hl : .loading ≠ l) :
    ((m.withPlan volumes).setLifecycle l).Stands [.loading, l]
      ((m.withPlan volumes).setLifecycle l).session.request.lookups := by
  obtain ⟨asked, loading, hasks⟩ := h.asks_of_waiting hf hc (.inr hs)
  rw [Asks, hs] at hasks
  have planned : m.Pauses (m.withPlan volumes) := ⟨rfl, rfl, rfl, rfl⟩
  have same : ((m.withPlan volumes).setLifecycle l).session.request = m.session.request :=
    request_setLifecycle ..
  rw [same, ← show asked = _ from hasks]
  exact (loading.pauses planned).setLifecycle hl

theorem Fresh.staged (hf : m.Fresh disk) (hp : m.Prelude a m') (h : m.Staged) : m'.Staged := by
  have opened (op : Operation) : m.Pauses (m.opened op) := (m.keeps_opened op).pauses
  cases hp with
  | rests _ k =>
    exact h.pauses k.pauses (fun c hc => k.calls ▸ hc) k.toDownload
  | answers k =>
    exact h.pauses (k.pauses.answer ..) (fun c hc => k.calls ▸ (List.mem_filter.mp hc).1)
      k.toDownload
  | @cancels parent =>
    have k := m.keeps_opened (.run parent)
    exact h.pauses ((opened _).ends ..) (fun c hc => k.calls ▸ (List.mem_filter.mp hc).1)
      k.toDownload
  | @asks op token hb hpr hl ha =>
    obtain ⟨loading, hcalls, request⟩ := h.loads hf hpr hl op
    have asked := loading.ask .preferencesAsked rfl rfl
    refine .loading ⟨asked.lifecycle, asked.changes, asked.lookups⟩ ?_ fun c hc => ?_
    · show [Happening.preferencesAsked] <+:
        ((m.opened op).setLifecycle .loading).session.request.lookups
      rw [request, Request.lookups, if_pos ha]
      exact ⟨[.catalogListed], rfl⟩
    rcases List.mem_cons.mp hc with rfl | hc
    · exact ⟨request.symm ▸ ha, rfl⟩
    · exact absurd (List.mem_filter.mp hc).1 (by simp [Machine.note, hcalls])
  | @lists op token hb hpr hl ha =>
    obtain ⟨loading, hcalls, request⟩ := h.loads hf hpr hl op
    refine loading.listCatalog ?_ (by simp [hcalls]) none
    rw [request, Request.lookups, if_neg (by simp [ha])]
    rfl
  | @proceeds op token m' hb hpr hproceeds =>
    have k := m.keeps_opened op
    exact ((h.plans_of_prepared hf hpr).pauses (opened op)
      k.toDownload).proceeds hproceeds
  | @prefers c a _ hc hs preferences =>
    obtain ⟨asked, loading, hasks⟩ := h.asks_of_waiting hf hc (.inl hs)
    obtain ⟨-, -, hcalls⟩ := hf.alone hc (.inl hs)
    rw [Asks, hs] at hasks
    obtain ⟨ha, rfl⟩ := hasks
    refine loading.listCatalog ?_ (by simp [hcalls]) preferences
    rw [Request.lookups, if_pos ha]
    rfl
  | @plansNothing c a volumes _ hc hs hd =>
    have waits : ((m.withPlan volumes).setLifecycle .waiting).Plans :=
      .planned (.inl rfl) (h.withPlan hf hc hs volumes (by simp))
    exact .plans (waits.pauses ((Pauses.refl _).release ..) rfl)
  | @plans c a volumes m' _ hc hs hd hproceeds =>
    have stage : m.session.plannedLifecycle = .waiting ∨ m.session.plannedLifecycle = .ready := by
      unfold Session.plannedLifecycle
      split
      · exact .inr rfl
      · exact .inl rfl
    have waits : ((m.withPlan volumes).setLifecycle m.session.plannedLifecycle).Plans :=
      .planned stage (h.withPlan hf hc hs volumes (by rcases stage with hl | hl <;> simp [hl]))
    exact waits.proceeds hproceeds
  | @released c a reason r _ hc =>
    exact h.pauses ((Pauses.refl m).ends ..) (fun c hc => (List.mem_filter.mp hc).1) rfl

/-- A session that downloads advances, and goes on so. -/
theorem Staged.advances_of_runs (h : m.Staged) {c : Call} (hr : m.Runs c) : m.Advances := by
  have running := hr.running
  unfold Session.isRunning at running
  cases h with
  | queued h => simp [h.lifecycle] at running
  | loading h => simp [h.lifecycle] at running
  | plans h =>
    rcases h with ⟨rfl | rfl, h⟩ | ⟨h, -⟩ <;> simp [h.lifecycle] at running
  | advances h => exact h

theorem At.staged (hat : m.At disk p) (hs : m.Sequel p a m') (h : m.Staged) : m'.Staged := by
  cases hs with
  | rests _ k =>
    exact h.pauses k.pauses (fun c hc => k.calls ▸ hc) k.toDownload
  | answers k =>
    exact h.pauses (k.pauses.answer ..) (fun c hc => k.calls ▸ (List.mem_filter.mp hc).1)
      k.toDownload
  | @moves id d move m' hm =>
    have advances := h.advances_of_runs hat.runs
    refine .advances ?_
    by_cases hfinish : move = .finish
    · subst hfinish
      obtain ⟨-, hm⟩ := Option.ite_none_right_eq_some.mp hm
      obtain rfl := Option.some.inj hm
      exact advances.pauses (m.pauses_conclude id d)
    · rcases (speaks_moveDownload? hm hfinish).pauses with hpauses | hpauses
      · exact advances.pauses hpauses
      · exact advances.setLifecycle.pauses hpauses
  | removes => exact .advances ((h.advances_of_runs hat).pauses (m.pauses_removeNext ..))
  | released hr => exact .advances ((h.advances_of_runs hat.1).pauses (m.pauses_released _ _ hr))

theorem Staged.step (h : Passes disk m a m' p p') (hm : m.Staged) : m'.Staged := by
  by_cases hp : p = .fresh
  · subst hp
    exact Fresh.staged h.before (Fresh.prelude h.before h.step) hm
  · exact h.before.staged (h.before.sequel hp h.step) hm

theorem staged_ofRequest (request : Request) (disk : Disk) : (ofRequest request disk).Staged :=
  .queued ⟨rfl, rfl, rfl⟩

/-- The stages that have been told of are the first of a route. -/
structure OnRoute (m : Machine) (stages : List Lifecycle) : Prop where
  route : ∃ route ∈ Lifecycle.routes, stages <+: route
  lifecycle : m.session.lifecycle = stages.getLastD .queued
  changes : Journal.changes m.journal = stages.map (m.session.request.id, ·)
  lookups : Journal.lookups m.journal <+: m.session.request.lookups

theorem Stands.onRoute {stages : List Lifecycle} {asked : List Happening} (h : m.Stands stages asked)
    (ha : asked <+: m.session.request.lookups)
    (hroute : (Lifecycle.routes.any fun route => stages.isPrefixOf route) = true) :
    m.OnRoute stages where
  route := by
    obtain ⟨route, hmem, hprefix⟩ := List.any_eq_true.mp hroute
    exact ⟨route, hmem, List.isPrefixOf_iff_prefix.mp hprefix⟩
  lifecycle := h.lifecycle
  changes := h.changes
  lookups := h.lookups ▸ ha

theorem Staged.onRoute (h : m.Staged) : ∃ stages, m.OnRoute stages := by
  cases h with
  | queued h => exact ⟨[], h.onRoute (List.nil_prefix ..) rfl⟩
  | loading h ha => exact ⟨[.loading], h.onRoute ha rfl⟩
  | plans h =>
    rcases h with ⟨rfl | rfl, h⟩ | ⟨h, -⟩ <;> exact ⟨_, h.onRoute List.prefix_rfl rfl⟩
  | advances h =>
    rcases h with ⟨rfl | rfl, h⟩ | ⟨rfl | rfl, h⟩ <;> exact ⟨_, h.onRoute List.prefix_rfl rfl⟩

/-- A session whose stage has changed since it was queued is not queued. -/
theorem OnRoute.stages_eq_nil {stages : List Lifecycle} (h : m.OnRoute stages)
    (hl : m.session.lifecycle = .queued) : stages = [] := by
  have never : ∀ route ∈ Lifecycle.routes, Lifecycle.queued ∉ route := by decide
  obtain ⟨route, hroute, hfirst⟩ := h.route
  refine Classical.byContradiction fun hne => never route hroute (hfirst.subset ?_)
  have last := h.lifecycle
  rw [hl, List.getLastD_eq_getLast?, List.getLast?_eq_some_getLast hne] at last
  exact last ▸ List.getLast_mem hne

/-- What has been told is told, and the stage has changed by what is new. -/
theorem At.announces {actions : List Action} (h : m.At disk p) (hs : m.run? actions = some m') :
    m.Announces m' := by
  obtain ⟨_, -, hannounces⟩ := h.always (I := fun m' _ => m.Announces m')
    (fun ht hm => hm.trans ht.announces) (.refl m) hs
  exact hannounces

theorem Announces.not_queued {stages stages' : List Lifecycle} (h : m.Announces m')
    (hm : m.OnRoute stages) (hm' : m'.OnRoute stages') (hl : m.session.lifecycle ≠ .queued) :
    m'.session.lifecycle ≠ .queued := by
  intro hl'
  obtain ⟨new, hnew, -⟩ := h.changes
  obtain rfl := hm'.stages_eq_nil hl'
  rw [hm'.changes, hm.changes, List.map_nil] at hnew
  have none : stages = [] := List.map_eq_nil_iff.mp (List.append_eq_nil_iff.mp hnew.symm).1
  exact hl (by rw [hm.lifecycle, none]; rfl)

/-! ### The download goes on without a break -/

/-- Each download is one that was going on at `start`. -/
def Continues (start : Phase) (_ : Machine) : Phase → Prop
  | .fresh => False
  | .downloading id d => ∃ d₀, start = .downloading id d₀ ∧ d₀.token = d.token
  | _ => True

theorem Continues.step {start : Phase} (h : Passes disk m a m' p p') (hm : Continues start m p) :
    Continues start m' p' := by
  cases h.transition with
  | prepares | opens => exact hm.elim
  | rests => exact hm
  | works _ _ ht =>
    obtain ⟨d₀, rfl, htoken⟩ := hm
    exact ⟨d₀, rfl, htoken.trans ht.symm⟩
  | fails | stops | finishes | removes | asks | ends => trivial

/-- A session that has begun to download begins no other download. -/
theorem At.continues {actions : List Action} (h : m.At disk p) (hr : m.session.isRunning = true)
    (hs : m.run? actions = some m') {c' : Call} {d' : Download} (hc' : c' ∈ m'.calls)
    (hd' : c'.stage = .downloading d') :
    ∃ c d, c ∈ m.calls ∧ c.stage = .downloading d ∧ c.id = c'.id ∧ d.token = d'.token := by
  have starts : Continues p m p := by
    cases p with
    | fresh => simp [Fresh.isRunning h] at hr
    | downloading id d => exact ⟨d, rfl, rfl⟩
    | removing | releasing | ended => trivial
  obtain ⟨p', h', hcontinues⟩ := h.always Continues.step starts hs
  obtain rfl := h'.eq_downloading hc' hd'
  obtain ⟨d, rfl, htoken⟩ := hcontinues
  exact ⟨⟨c'.id, some d.token, .downloading d⟩, d, by simp [h.runs.calls], rfl, rfl, htoken⟩

theorem selects (m : Machine) (ids : List String) :
    ∃ r, (m.begin (.select ids)).journal = .answered m.callCount r :: m.journal ∧
      (r.isOk = true ↔ m.session.lifecycle = .waiting ∨ m.session.lifecycle = .ready) ∧
      (m.begin (.select ids)).session.selection = if r.isOk then ids else m.session.selection := by
  have accepts : m.session.acceptsSelection = true ↔
      m.session.lifecycle = .waiting ∨ m.session.lifecycle = .ready := by
    simp [Session.acceptsSelection]
  by_cases hs : m.session.acceptsSelection = true
  · refine ⟨.ok none, ?_, iff_of_true rfl (accepts.mp hs), ?_⟩ <;>
      simp [begin, select, hs, answer, note, Session.note, Except.isOk, Except.toBool]
  · refine ⟨.error (.invalidState "set user selection" m.session.lifecycle), ?_,
      iff_of_false Bool.false_ne_true (hs ∘ accepts.mpr), ?_⟩ <;>
      simp [begin, select, hs, answer, note, Session.note, Except.isOk, Except.toBool]

/-! ### Two points of a course -/

/-- How a session has gone on from `m` to `m'`. -/
structure GoesOn (m m' : Machine) : Prop where
  /-- Listeners have heard of each change of the stage, one after the other. -/
  announced : ∃ new, Journal.changes m'.journal =
      Journal.changes m.journal ++ new.map (m.session.request.id, ·) ∧
    m.session.lifecycle.Goes new m'.session.lifecycle
  /-- All they have heard of, from the beginning on, are the first stages of a route. -/
  route : ∃ route ∈ Lifecycle.routes, ∃ stages, stages <+: route ∧
    Journal.changes m'.journal = stages.map (m'.session.request.id, ·)
  left : m.session.lifecycle ≠ .queued → m'.session.lifecycle ≠ .queued
  /-- Preferences are asked for at most once, if at all, and the catalog is listed at most once. -/
  lookups : Journal.lookups m'.journal <+: m'.session.request.lookups
  /-- Once the session downloads, whatever downloads is what did so before. -/
  downloads : m.session.isRunning = true → ∀ c' ∈ m'.calls, ∀ d', c'.stage = .downloading d' →
    ∃ c d, c ∈ m.calls ∧ c.stage = .downloading d ∧ c.id = c'.id ∧ d.token = d'.token
  /-- Chapters can be selected just while the session is waiting or ready. -/
  select : ∀ ids, ∃ r, (m'.begin (.select ids)).journal = .answered m'.callCount r :: m'.journal ∧
    (r.isOk = true ↔ m'.session.lifecycle = .waiting ∨ m'.session.lifecycle = .ready) ∧
    (m'.begin (.select ids)).session.selection = if r.isOk then ids else m'.session.selection

/-- However operations are called and collaborators answer, a session goes through the stages of a
route, tells of each change, asks for what it plans with once, and downloads once. -/
theorem stages_course {request : Request} {before after : List Action}
    (hbefore : (ofRequest request disk).run? before = some m) (hafter : m.run? after = some m') :
    m.GoesOn m' := by
  have begins : (ofRequest request disk).At disk .fresh := fresh_ofRequest request disk
  obtain ⟨p, h, hstaged⟩ := begins.always (I := fun m _ => m.Staged) Staged.step
    (staged_ofRequest request disk) hbefore
  obtain ⟨p', -, hstaged'⟩ := h.always (I := fun m _ => m.Staged) Staged.step hstaged hafter
  obtain ⟨stages, onRoute⟩ := hstaged.onRoute
  obtain ⟨stages', onRoute'⟩ := hstaged'.onRoute
  have announces := h.announces hafter
  obtain ⟨route, hroute, hfirst⟩ := onRoute'.route
  exact {
    announced := announces.changes
    route := ⟨route, hroute, stages', hfirst, onRoute'.changes⟩
    left := announces.not_queued onRoute onRoute'
    lookups := onRoute'.lookups
    downloads := fun hr c' hc' d' hd' => h.continues hr hafter hc' hd'
    select := m'.selects }

theorem stages_course_oneChapter :
    ∃ m m', (ofRequest (seriesOf ["1"]) {}).run? begun = some m ∧
      m.run? (chapterOfOnePage ++ [.move 0 .finish, .released 0 (.ok ())]) = some m' ∧
      m.GoesOn m' ∧ m'.session.lifecycle = .cleanup := by
  have ends : ((ofRequest (seriesOf ["1"]) {}).run? begun).any (fun m =>
      (m.run? (chapterOfOnePage ++ [.move 0 .finish, .released 0 (.ok ())])).any fun m' =>
        m'.session.lifecycle == .cleanup) = true := by
    decide +kernel
  obtain ⟨m, hbefore, hends⟩ := (Option.any_eq_true ..).mp ends
  obtain ⟨m', hafter, hcleanup⟩ := (Option.any_eq_true ..).mp hends
  exact ⟨m, m', hbefore, hafter, stages_course hbefore hafter, beq_iff_eq.mp hcleanup⟩

end Machine
end Longbox
