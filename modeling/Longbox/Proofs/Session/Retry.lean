import Longbox.Proofs.Session.Completion
import Longbox.Proofs.Session.Return

/-! What a chapter comes to whose pages may be fetched a second time.

Whatever order its fetches end in and whichever of them fail, a chapter that goes undisturbed fetches no page
more than twice, and a page for the second time only once the first fetch of every page has ended. It is
through when no page fails again, and otherwise such a page is its failure (`chapter_retries_once`). -/
namespace Longbox
namespace Machine

/-- The chapter is through: its pages have been queued as they were fetched, and it counts. -/
structure Passed (a : Assignment) (m₀ m : Machine) (d : Download) (v : PageLog) : Prop where
  failure : d.store.failure = none
  twice : ∀ task ∈ v.failing false, v.begun.count task = 2
  queued : v.queued.Perm v.fetched
  pages : (v.queued.map FetchedPage.key).Perm ((PageFetcher.tasks a.urls).map (a.dir, ·))
  chapters : m.session.counters.chapters = m₀.session.counters.chapters + 1
  images : m.session.counters.images = a.urls.length

/-- The chapter has failed of a page, by the error of its second fetch, and does not count. -/
structure Failed (m₀ m : Machine) (d : Download) (v : PageLog) : Prop where
  current : d.current = none
  failure : ∃ task e, (task, e) ∈ v.errors true ∧
    d.store.failure = some (.download (.pageFailed task.index task.url e.message))
  chapters : m.session.counters.chapters = m₀.session.counters.chapters

/-- The chapter has ended, and `v` is the log of its pages. -/
structure Settles (a : Assignment) (m₀ m : Machine) (d : Download) (v : PageLog) : Prop where
  distinct : (v.failing false).Nodup
  again : v.failing true ⊆ v.failing false
  others : ∀ task ∈ PageFetcher.tasks a.urls, task ∉ v.failing false → v.begun.count task = 1
  failures : m.session.counters.failures =
    m₀.session.counters.failures + (v.failing false).length
  passes : v.failing true = [] → Passed a m₀ m d v
  fails : v.failing true ≠ [] → Failed m₀ m d v

/-- What has been told since `m₀` of a chapter that is at `m`, or has ended there. -/
structure Retries (a : Assignment) (m₀ m : Machine) (hs : List Happening) : Prop where
  since : m.ledger.happened = hs ++ m₀.ledger.happened
  ordered : Journal.Ordered (PageFetcher.tasks a.urls) hs
  twice : ∀ task, (Journal.pages hs).begun.count task ≤ 2
  ends : m.isAt a = false →
    ∃ d, m.download? a.call = some d ∧ Settles a m₀ m d (Journal.pages hs)
  /-- Whatever its fetches are answered, it can be brought to its end. -/
  returns : m.isAt a = true → m.isCancelled a.token = false →
    (m.Takes a → (m.disk.makeAll a.dir).2 = none) →
    ∀ answer : PageTask → Bool → Except Error ByteArray,
      (∀ task isRetry e, answer task isRetry = .error e → e.isCancelled = false) →
        ∃ m', Brings a answer m m' ∧ m'.isAt a = false

variable {disk : Disk} {m₀ m : Machine} {a : Assignment} {d : Download} {hs : List Happening}

theorem settles_of_ends (h : a.Ends m₀.ledger m.ledger hs d) :
    Settles a m₀ m d (Journal.pages hs) := by
  have adds := Journal.pages_adds hs
  have hn := PageFetcher.nodup_tasks a.urls
  have settled : ((Journal.pages hs).failing true = [] → Passed a m₀ m d (Journal.pages hs)) ∧
      ((Journal.pages hs).failing true ≠ [] → Failed m₀ m d (Journal.pages hs)) := by
    cases h with
    | passes since hi through hf =>
      have images : (Journal.pages hs).fetched.length = a.urls.length := by
        simpa [PageFetcher.tasks] using (through.fetched_perm adds).length_eq
      have none : (Journal.pages hs).failing true = [] := by
        rw [PageLog.failing, through.errors]
        rfl
      exact ⟨fun _ => ⟨hf, fun _ => through.begun_twice adds hn, through.queued,
        through.queued_perm adds, since.chapters, hi.trans images⟩, fun some => absurd none some⟩
    | fails since broken hf gone =>
      obtain ⟨task, cause, hmem, rfl⟩ := broken.failure
      have some : (Journal.pages hs).failing true ≠ [] :=
        List.ne_nil_of_mem (List.mem_map_of_mem hmem)
      exact ⟨fun none => absurd none some, fun _ => ⟨gone, ⟨task, cause, hmem, hf⟩, since.chapters⟩⟩
  obtain ⟨n, since⟩ := h.since
  exact ⟨h.over.nodup_failing adds hn, fun _ => h.over.failing_again adds,
    fun _ => h.over.begun_once hn, since.failures, settled.1, settled.2⟩

/-- A session gives the addresses of a chapter and goes on while the chapter is undisturbed. Then no page
is fetched more than twice, and for the second time only when every page has been fetched once. When the
chapter has ended, the pages that failed were fetched a second time and all have been queued, or one of them
failed again and is the failure. And it can always be brought to its end. -/
theorem chapter_retries_once {request : Request} {before during : List Action}
    (hbefore : (ofRequest request disk).run? before = some m₀) (htakes : m₀.Takes a)
    (hduring : m₀.run? during = some m) (hu : m₀.Along (Undisturbed a) during) :
    ∃ hs, Retries a m₀ m hs := by
  obtain ⟨p₀, at₀, equipped₀⟩ := equipped_of_run? hbefore
  have attends₀ : Attends a m₀.ledger m₀ p₀ := htakes.attends at₀ fun id d hp => by
    subst hp
    exact equipped₀.1
  obtain ⟨p, hat, ⟨d, rfl, htoken, -, hs, hstate⟩, equipped⟩ := at₀.along
    (I := fun m p => Attends a m₀.ledger m p ∧ m.Equipped p)
    (fun passes hu h => ⟨h.1.keeps passes hu, h.2.keeps passes⟩) ⟨attends₀, equipped₀⟩ hu hduring
  have downloads : m.Downloads a.call d := hat
  have twice (begun : ∀ task,
      (Journal.pages hs).begun.count task ≤ 2 * (PageFetcher.tasks a.urls).count task)
      (task : PageTask) : (Journal.pages hs).begun.count task ≤ 2 :=
    Nat.le_trans (begun task) (Nat.mul_le_mul_left 2
      (List.nodup_iff_count_le_one.mp (PageFetcher.nodup_tasks a.urls) task))
  refine ⟨hs, ?_⟩
  rcases hstate with ⟨c, goes⟩ | ends
  · have current := isAt_of_goes goes downloads.download?
    refine ⟨goes.since.happened, goes.since.ordered, twice goes.stage.begun_le,
      fun gone => ?_, fun _ running placed answer honest => ?_⟩
    · rw [current] at gone
      cases gone
    · have ready : Ready a m₀.ledger m d c := ⟨downloads, htoken, running, equipped, hs, goes⟩
      exact ready.returns (fun hc => placed (takes_of_goes goes downloads.download? htoken hc)) honest
  · have gone := isAt_of_ends ends downloads.download?
    obtain ⟨n, since⟩ := ends.since
    refine ⟨since.happened, since.ordered, twice (ends.over.begun_le (Journal.pages_adds hs)),
      fun _ => ⟨d, downloads.download?, settles_of_ends ends⟩, fun current => ?_⟩
    rw [gone] at current
    cases current

/-- The one chapter of that series. -/
def onlyChapter : Assignment where
  call := 0
  token := 0
  dir := "lib/T/T Ch. 0001"
  urls := ["u", "v"]
  rest := []

/-- The first page fails once. -/
theorem chapter_retries_once_twoPages :
    ∃ m₀ m hs, (ofRequest oneChapter {}).run? (twoPages.take 3) = some m₀ ∧
      m₀.Takes onlyChapter ∧ m₀.run? ((twoPages.drop 3).take 21) = some m ∧
      m₀.Along (Undisturbed onlyChapter) ((twoPages.drop 3).take 21) ∧
      m.isAt onlyChapter = false ∧ Retries onlyChapter m₀ m hs := by
  have goes : ((ofRequest oneChapter {}).run? (twoPages.take 3)).any (fun m₀ =>
      decide (m₀.Takes onlyChapter) &&
        decide (m₀.Along (Undisturbed onlyChapter) ((twoPages.drop 3).take 21)) &&
          (m₀.run? ((twoPages.drop 3).take 21)).any fun m => !m.isAt onlyChapter) = true := by
    decide +kernel
  obtain ⟨m₀, hbefore, hgoes⟩ := (Option.any_eq_true ..).mp goes
  simp only [Bool.and_eq_true, decide_eq_true_eq] at hgoes
  obtain ⟨⟨takes, undisturbed⟩, ends⟩ := hgoes
  obtain ⟨m, hduring, gone⟩ := (Option.any_eq_true ..).mp ends
  obtain ⟨hs, retries⟩ := chapter_retries_once hbefore takes hduring undisturbed
  exact ⟨m₀, m, hs, hbefore, takes, hduring, undisturbed, by simpa using gone, retries⟩

end Machine
end Longbox
