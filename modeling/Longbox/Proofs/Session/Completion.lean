import Longbox.Proofs.Download.Balance
import Longbox.Proofs.Session.Phase

/-! What a completed session has done.

Collaborators that are asked to stop may answer that they were cancelled, and pages are then dropped
without a failure. As long as they answer so only when asked to stop (`Machine.Truthful`), a session
that completes has committed every page of every chapter once (`completed_commits`), whatever order
fetches and commits end in and whichever fetches fail for the first time. -/
namespace Longbox

/-- The token that a collaborator is handed for a move is cancelled. Pages are fetched with the token
of their chapter, which is cancelled too when the chapter fails. -/
def Download.handsCancelled (d : Download) (cancelled : Bool) : Move → Bool
  | .receivePage .. => cancelled || d.hasFailed
  | _ => cancelled

def Action.saysCancelled : Action → Bool
  | .move _ m => m.saysCancelled
  | _ => false

/-- What a journal tells of a download of these chapters that is complete: `n` chapters have pages,
each page has been fetched and committed as it was fetched, and nothing else. -/
structure Journal.Complete (naming : Naming) (planned : List Chapter) (hs : List Happening)
    (n : Nat) : Prop where
  chapters : (Journal.given hs).map (·.1) = planned
  pages : ((Journal.committed hs).map FetchedPage.key).Perm
    ((Journal.given hs).flatMap naming.pages)
  bytes : (Journal.committed hs).Perm (Journal.fetched hs)
  commits : (Journal.begun hs).Perm (Journal.committed hs)
  count : n = (Journal.given hs).countP fun given => !given.2.isEmpty

/-- Work is all that a journal tells of pages. -/
theorem Journal.complete_filter_isWork {naming : Naming} {planned : List Chapter}
    {hs : List Happening} {n : Nat}
    (h : Complete naming planned (hs.filter Happening.isWork) n) : Complete naming planned hs n := by
  have hgiven := given_filter_isWork hs
  have hfetched : fetched (hs.filter Happening.isWork) = fetched hs :=
    filterMap_filter_isWork (fun x hx => by cases x <;> first | rfl | cases hx) hs
  have hbegun : begun (hs.filter Happening.isWork) = begun hs :=
    filterMap_filter_isWork (fun x hx => by cases x <;> first | rfl | cases hx) hs
  have hcommitted : committed (hs.filter Happening.isWork) = committed hs :=
    filterMap_filter_isWork (fun x hx => by cases x <;> first | rfl | cases hx) hs
  obtain ⟨chapters, pages, bytes, commits, count⟩ := h
  rw [hgiven] at chapters pages count
  rw [hcommitted] at pages bytes commits
  rw [hfetched] at bytes
  rw [hbegun] at commits
  exact ⟨chapters, pages, bytes, commits, count⟩

/-- A download whose work is over has done all of it, if its accounts are balanced. -/
theorem Download.Accounts.complete {t : Terms} {l : Ledger} {d : Download} (h : d.Accounts t l)
    (ok : Ok t d) (hc : d.store.isClosed = true) (hd : d.store.isDone = true) :
    Journal.Complete t.naming t.toDownload l.happened l.chapters := by
  have hcurrent := ok.closed hc
  have hremaining := h.closed hc
  simp only [PageStore.isDone, h.running, hc, Bool.false_or, Bool.true_and, Bool.and_eq_true,
    List.isEmpty_iff] at hd
  have hshare : d.share = {} := by rw [share, hcurrent]
  obtain ⟨planned, pages, fetched, begun, chapters, -, -⟩ := h
  rw [hshare] at planned pages fetched chapters
  rw [hd.1, hd.2] at pages fetched
  rw [hd.2] at begun
  rw [hremaining] at planned
  simp only [List.append_nil] at planned pages fetched begun
  exact ⟨planned.symm, pages.symm, fetched.symm, begun, chapters.symm⟩

namespace Machine

/-- A collaborator answers that it was cancelled only if the token that it was handed is cancelled. -/
def Truthful (m : Machine) : Action → Prop
  | .move id move => ∀ c d, m.call? id = some c → c.stage = .downloading d →
    move.saysCancelled = true → d.handsCancelled (m.isCancelled d.token) move = true
  | _ => True

/-- Collaborators that never say so are truthful. -/
theorem along_truthful {actions : List Action} (h : ∀ a ∈ actions, a.saysCancelled = false)
    (m : Machine) : m.Along Truthful actions := by
  refine along_of_forall (fun a ha m => ?_) m
  cases a with
  | move id move =>
    intro c d _ _ hsays
    have never : move.saysCancelled = false := h _ ha
    rw [never] at hsays
    cases hsays
  | _ => trivial

/-- No page is lost while a session downloads, and none is missing when it has completed. -/
def Lossless (m : Machine) : Phase → Prop
  | .downloading _ d => d.Ok m.terms ∧
    (m.isCancelled d.token = false → d.hasFailed = false → d.Accounts m.terms m.ledger)
  | .releasing _ _ (.finished n) | .ended (.completed n) =>
    Journal.Complete m.terms.naming m.terms.toDownload m.ledger.happened n
  | _ => True

variable {disk : Disk} {m m' : Machine} {a : Action} {p p' : Phase}

/-- A download begins with nothing given and nothing lost. -/
theorem Opens.lossless {id : Nat} {d : Download} (h : m.Opens disk id d) :
    m.Lossless (.downloading id d) := by
  obtain ⟨d₀, hopen, hnext⟩ := h.next
  obtain ⟨slots, hstore⟩ := hopen.store
  have open₀ : d₀.store.isClosed = false := by rw [hstore]
  refine ⟨hnext.ok open₀, fun hc _ => ?_⟩
  rw [hc] at hnext
  refine Download.Next.accounts ?_ open₀ hnext
  have hremaining := hopen.remaining
  constructor <;> simp [hstore, hremaining, Ledger.given, Ledger.fetched, Ledger.begun,
    Ledger.committed, Ledger.expected, Ledger.chapters, Journal.given, Journal.fetched,
    Journal.begun, Journal.committed]

/-- A step of a download that is not cancelled after it loses no page. -/
theorem Lossless.works {id : Nat} {d d' : Download} {move : Move} (h : m.Downloads id d)
    (h' : m'.Downloads id d') (ha : m.Truthful (.move id move))
    (hs : d.Step m.terms.naming (m.isCancelled d.token) m.ledger move m'.ledger d')
    (ht : d'.token = d.token) (hf : m.Follows m') (hm : m.Lossless (.downloading id d)) :
    m'.Lossless (.downloading id d') := by
  obtain ⟨ok, accounts⟩ := hm
  refine ⟨?_, fun hc' hp' => ?_⟩
  · rw [hf.terms]
    exact hs.ok ok
  have hc : m.isCancelled d.token = false := hf.not_cancelled (ht ▸ hc')
  have failed (hfail : d'.store.failure.isSome = true) : False := by
    rw [h'.cancelled hfail] at hc'
    cases hc'
  have failure : d.store.failure = none := by
    cases he : d.store.failure with
    | none => rfl
    | some e =>
      rw [h.cancelled (by rw [he]; rfl)] at hc
      cases hc
  rw [hc] at hs
  cases hp : d.hasFailed with
  | true =>
    rcases hs.hasFailed ok hp with hfailed | hfail
    · rw [hp'] at hfailed
      cases hfailed
    · exact (failed hfail).elim
  | false =>
    have truthful : move.saysCancelled = false := by
      cases hsays : move.saysCancelled with
      | false => rfl
      | true =>
        have hand := ha _ d h.call? rfl hsays
        rw [hc] at hand
        cases move <;> simp [Download.handsCancelled, hp] at hand
    rcases (accounts hc hp).step ok hs truthful failure hp with hfail | hfailed | haccounts
    · exact (failed hfail).elim
    · rw [hp'] at hfailed
      cases hfailed
    · rw [hf.terms]
      exact haccounts

theorem Lossless.step (h : m.At disk p) (h' : m'.At disk p') (ha : m.Truthful a)
    (ht : Transition disk m m' a p p') (hm : m.Lossless p) : m'.Lossless p' := by
  cases ht with
  | prepares => trivial
  | opens hopens => exact hopens.lossless
  | works haction hs htoken hf =>
    subst haction
    exact Lossless.works h h' ha hs htoken hf hm
  | rests hl hf =>
    unfold Lossless at hm ⊢
    rw [hl, hf.terms]
    split
    · exact ⟨hm.1, fun hc => hm.2 (hf.not_cancelled hc)⟩
    · exact hm
    · exact hm
    · trivial
  | @finishes id d hc hd he hr hl hf =>
    obtain ⟨ok, accounts⟩ := hm
    have hp : d.hasFailed = false := by rw [Download.hasFailed, ok.closed hc]
    unfold Lossless
    dsimp only
    rw [hl, hf.terms]
    exact (accounts hr hp).complete ok hc hd
  | @ends id token reason hl hf =>
    cases reason with
    | finished n =>
      unfold Lossless at hm ⊢
      dsimp only [ReleaseReason.outcome] at hm ⊢
      rw [hl, hf.terms]
      exact hm
    | _ => trivial
  | _ => trivial

/-- A session that has completed has committed each page of each planned chapter once, with the bytes
that its fetch brought, and nothing else. -/
theorem completed_commits {request : Request} {disk : Disk} {actions : List Action}
    {m : Machine} {call n : Nat} (hrun : (ofRequest request disk).run? actions = some m)
    (htruthful : (ofRequest request disk).Along Truthful actions)
    (hanswer : .answered call (.ok (some (.completed n))) ∈ m.journal) :
    Journal.Complete m.session.naming m.session.plan.toDownload m.journal n := by
  have begins : (ofRequest request disk).At disk .fresh := fresh_ofRequest request disk
  obtain ⟨p, hat, hlossless⟩ := begins.run? (I := Lossless) Lossless.step trivial htruthful hrun
  obtain rfl := hat.over_of_answered hanswer rfl
  exact Journal.complete_filter_isWork hlossless

/-- A series of one chapter. -/
def oneChapter : Request where
  id := "s"
  title := "T"
  catalog := [⟨"a", "", "1", ""⟩]
  config := { download := { downloadDir := "lib" } }

/-- Two pages, of which the first fails once and is committed before the second. -/
def twoPages : List Action :=
  [.call (.run 0), .plan 0 fun _ => none, .move 0 (.receiveUrls (.ok ["u", "v"])),
    .move 0 .makeDirectory, .move 0 (.endMetadata (.ok ())), .move 0 .takePage, .move 0 .takePage,
    .move 0 (.requestPermit 0), .move 0 (.requestPermit 1),
    .move 0 (.receivePage 0 (.error (.transport "down"))),
    .move 0 (.receivePage 0 (.ok ⟨#[2]⟩)), .move 0 (.queuePage 0), .move 0 .endPass,
    .move 0 .takePage, .move 0 (.requestPermit 0), .move 0 (.receivePage 0 (.ok ⟨#[1]⟩)),
    .move 0 (.queuePage 0), .move 0 .endPass, .move 0 .beginCommit, .move 0 .beginCommit,
    .move 0 (.endCommit 1 (.ok .disk)), .move 0 (.endCommit 0 (.ok .disk)), .pass 1000000000,
    .move 0 .goOn, .move 0 .finish, .released 0 (.ok ())]

theorem completed_commits_twoPages :
    ∃ m, (ofRequest oneChapter {}).run? twoPages = some m ∧
      Journal.Complete m.session.naming m.session.plan.toDownload m.journal 1 := by
  have ends : ((ofRequest oneChapter {}).run? twoPages).any (·.tells (.completed 1)) = true := by
    decide +kernel
  obtain ⟨m, hrun, htells⟩ := (Option.any_eq_true ..).mp ends
  obtain ⟨call, hanswer⟩ := exists_answered htells
  have truthful : (ofRequest oneChapter {}).Along Truthful twoPages :=
    along_truthful (by decide) _
  exact ⟨m, hrun, completed_commits hrun truthful hanswer⟩

end Machine
end Longbox
