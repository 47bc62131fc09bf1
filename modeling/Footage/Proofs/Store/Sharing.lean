import Footage.Proofs.Store.Naming

/-! Which fragments count as shared, whatever lengths are stored. A fragment may end
before it starts, if its length is negative. The span of such fragments does not reach
their starts, so a recording that begins after the span is passed over although it has
one of them. A fragment that starts by the end of some fragment is never passed over. -/

namespace Footage.Store

variable {s : Store} {row : RecordingRow}

/-- In a store that operations lead to, whose recordings start at encodable seconds, every recording
resolves, and the shared ones among its fragments are told, whatever lengths the metadata has. They
are the fragments of other recordings of the camera that start, but for the lookback, by the end of
some of the fragments. So a fragment that itself starts by such an end is shared if and only if another
recording of the camera has it, wherever that recording starts. -/
theorem sharedPaths_exact (hreach : s.Reachable) (hstarts : s.StartsEncodable)
    (hrow : row ∈ s.recordings.rows) {r : Recording} (hr : row.read = .ok r) (lookback : ℕ)
    (now : Time) :
    (∀ q ∈ s.recordings.rows, ∃ p, q.read = .ok p ∧
      s.fragmentsOf p lookback now = .ok (s.footage lookback now q)) ∧
    ∃ shared, s.sharedPaths r (s.footage lookback now row) lookback now = .ok shared ∧
      (∀ path, path ∈ shared ↔ path ∈ s.footagePaths lookback now row ∧
        ∃ q ∈ s.recordings.rows, q.camera = row.camera ∧ q.id ≠ row.id ∧
          q.StartsBy (s.footage lookback now row) lookback ∧
          path ∈ s.footagePaths lookback now q) ∧
      ∀ f ∈ s.footage lookback now row,
        (∃ g ∈ s.footage lookback now row, (f.start.seconds : ℤ) ≤ g.lastSecond) →
          (f.path ∈ shared ↔ ∃ q ∈ s.recordings.rows, q.camera = row.camera ∧ q.id ≠ row.id ∧
            f.path ∈ s.footagePaths lookback now q) := by
  have hs := hreach.sound
  obtain ⟨shared, hshared, hmem⟩ := hs.exists_sharedPaths_startsBy hstarts hrow hr lookback now
  refine ⟨fun q hq => ?_, shared, hshared, hmem, fun f hf hby => ?_⟩
  · obtain ⟨p, hp⟩ := (hs.recordings.valid q hq).exists_read
    exact ⟨p, hp, (hs.fragmentsOf_eq hq hp lookback now).1⟩
  · have hpath : f.path ∈ s.footagePaths lookback now row := List.mem_map_of_mem hf
    rw [hmem, and_iff_right hpath]
    refine exists_congr fun q => and_congr_right fun hq => ?_
    refine and_congr_right fun _ => and_congr_right fun _ => and_iff_right_of_imp fun hpath' => ?_
    obtain ⟨g, hg, hgpath⟩ := (hs.mem_footagePaths hq).1 hpath'
    exact hg.startsBy hs hstarts hq hrow hf hgpath hby

/-! ### A fragment that ends before it starts -/

/-- A recorder's file that starts at a second, and metadata with a length of play. -/
def fragmentPlaying (start : Timestamp) (seconds : ℤ) : Operation :=
  let path := "/m/" ++ start.filename fragmentExtension
  .insertFragment ⟨⟨0, path, "/m", start.filename fragmentExtension⟩, "cam", recorderCategory, 1024⟩
    ⟨path, some (.ofInt seconds), .nil⟩ (clock 0)

/-- A recording that has ended, as it is stored and as it is read. -/
def ended (id : ℤ) (start stop : ℕ) : RecordingRow :=
  { recordingAt id start with endTime := .integer stop, updatedAt := .integer 0 }

def readingOfEnded (id : ℤ) (start stop : ℕ) : Recording :=
  ⟨⟨"cam", clock start, none, none, ""⟩, id, some (clock stop), clock 0, some (clock 0)⟩

/-- The first fragment starts at 1000 and ends at 500. The first recording has no other, and the
second one, which starts at 950, has both. -/
def backwards : Store :=
  { fresh with
    files := ⟨[recorded 1 "/m/0000001000.m4s" "0000001000.m4s",
      recorded 2 "/m/0000001200.m4s" "0000001200.m4s"], 2⟩
    filesMeta := ⟨[{ recordedMeta 1 "/m/0000001000.m4s" 0 with duration := .real (.ofInt (-500)) },
      recordedMeta 2 "/m/0000001200.m4s" 60], 2⟩
    recordings := ⟨[ended 1 900 1100, ended 2 950 1300], 2⟩ }

theorem reachable_backwards : backwards.Reachable := by
  have h : backwards = (Session.run
      [fragmentPlaying ⟨1000, by decide⟩ (-500), fragmentPlaying ⟨1200, by decide⟩ 60,
        .insertRecording ⟨"cam", clock 900, none, none, ""⟩ (clock 0),
        .finishRecording 1 (clock 1100) (clock 0),
        .insertRecording ⟨"cam", clock 950, none, none, ""⟩ (clock 0),
        .finishRecording 2 (clock 1300) (clock 0)] (.ofStore fresh)).2.store := by decide +kernel
  exact h ▸ Session.reachable_run _

/-- A fragment of the file and the metadata of one id. -/
def fragmentOf (id : ℤ) (start : Timestamp) (seconds : ℤ) : Fragment :=
  let path := "/m/" ++ start.filename fragmentExtension
  ⟨⟨⟨⟨0, path, "/m", start.filename fragmentExtension⟩, "cam", recorderCategory, 1024⟩, id, clock 0,
    none⟩, ⟨⟨path, some (.ofInt seconds), .nil⟩, id, clock 0, none⟩, start, .inWindow⟩

theorem startsEncodable_backwards : backwards.StartsEncodable := by
  intro row hrow
  rw [backwards, List.mem_pair] at hrow
  rcases hrow with rfl | rfl
  · exact ⟨⟨900, by decide⟩, rfl⟩
  · exact ⟨⟨950, by decide⟩, rfl⟩

theorem mem_footage_backwards {f : Fragment} (hrow : row ∈ backwards.recordings.rows) {r : Recording}
    (hr : row.read = .ok r)
    (h : ∃ q ∈ backwards.fragmentRows,
      (Query.Files.inWindow row.camera (r.window 0 (clock 3000))).condition.holds q.value ∧
        q.fragment? (r.window 0 (clock 3000)) = some f) :
    f ∈ backwards.footage 0 (clock 3000) row := by
  have hs := reachable_backwards.sound
  exact (hs.mem_footage hrow).2 ((plays_iff hr).2 ((resolves_iff hs.declared).2 h))

theorem footage_backwards :
    fragmentOf 1 ⟨1000, by decide⟩ (-500) ∈ backwards.footage 0 (clock 3000) (ended 2 950 1300) ∧
    fragmentOf 2 ⟨1200, by decide⟩ 60 ∈ backwards.footage 0 (clock 3000) (ended 2 950 1300) := by
  have hrow : ended 2 950 1300 ∈ backwards.recordings.rows := by decide
  have hr : (ended 2 950 1300).read = .ok (readingOfEnded 2 950 1300) := by decide
  refine ⟨mem_footage_backwards hrow hr ⟨_, List.mem_cons_self, by decide, ?_⟩,
    mem_footage_backwards hrow hr ⟨_, List.mem_cons_of_mem _ List.mem_cons_self, by decide, ?_⟩⟩
  · with_unfolding_all rfl
  · with_unfolding_all rfl

theorem footagePaths_backwards :
    backwards.footagePaths 0 (clock 3000) (ended 1 900 1100) = ["/m/0000001000.m4s"] := by
  with_unfolding_all decide

/-- The fragment that ends before it starts is told to be shared for the second recording, which has
another fragment that ends later. -/
theorem shared_backwards :
    backwards.Reachable ∧ backwards.StartsEncodable ∧
    ended 2 950 1300 ∈ backwards.recordings.rows ∧
    (ended 2 950 1300).read = .ok (readingOfEnded 2 950 1300) ∧
    ∃ shared, backwards.sharedPaths (readingOfEnded 2 950 1300)
        (backwards.footage 0 (clock 3000) (ended 2 950 1300)) 0 (clock 3000) = .ok shared ∧
      "/m/0000001000.m4s" ∈ shared := by
  have hrow : ended 2 950 1300 ∈ backwards.recordings.rows := by decide
  have hr : (ended 2 950 1300).read = .ok (readingOfEnded 2 950 1300) := by decide
  obtain ⟨hf, hg⟩ := footage_backwards
  have hreach : (1200 : ℤ) ≤ (fragmentOf 2 ⟨1200, by decide⟩ 60).lastSecond := by
    refine Fragment.start_le_lastSecond (f := fragmentOf 2 ⟨1200, by decide⟩ 60) fun d hd => ?_
    obtain rfl := Option.some.inj hd
    exact ⟨Binary64.isFinite_ofInt (by norm_num), Binary64.zero_le_ofInt (by norm_num)⟩
  obtain ⟨-, shared, hshared, -, hmem⟩ := sharedPaths_exact reachable_backwards
    startsEncodable_backwards hrow hr 0 (clock 3000)
  refine ⟨reachable_backwards, startsEncodable_backwards, hrow, hr, shared, hshared, ?_⟩
  have hpath : "/m/0000001000.m4s" ∈ backwards.footagePaths 0 (clock 3000) (ended 1 900 1100) := by
    rw [footagePaths_backwards]
    exact List.mem_cons_self
  exact (hmem _ hf ⟨_, hg, le_trans (by decide) hreach⟩).2
    ⟨ended 1 900 1100, by decide, rfl, by decide, hpath⟩

/-- The first recording's only fragment is not told to be shared, though the second one has it. -/
theorem not_shared_backwards :
    backwards.Reachable ∧ backwards.StartsEncodable ∧
    ended 1 900 1100 ∈ backwards.recordings.rows ∧
    (ended 1 900 1100).read = .ok (readingOfEnded 1 900 1100) ∧
    backwards.footagePaths 0 (clock 3000) (ended 1 900 1100) = ["/m/0000001000.m4s"] ∧
    (∃ q ∈ backwards.recordings.rows, q.camera = "cam" ∧ q.id ≠ 1 ∧
      "/m/0000001000.m4s" ∈ backwards.footagePaths 0 (clock 3000) q) ∧
    backwards.sharedPaths (readingOfEnded 1 900 1100)
      (backwards.footage 0 (clock 3000) (ended 1 900 1100)) 0 (clock 3000) = .ok [] := by
  have hrow : ended 2 950 1300 ∈ backwards.recordings.rows := by decide
  have hpath : "/m/0000001000.m4s" ∈ backwards.footagePaths 0 (clock 3000) (ended 2 950 1300) :=
    List.mem_map.2 ⟨_, footage_backwards.1, by decide⟩
  exact ⟨reachable_backwards, startsEncodable_backwards, by decide, by decide, footagePaths_backwards,
    ⟨_, hrow, rfl, by decide, hpath⟩, by decide +kernel⟩

end Footage.Store
