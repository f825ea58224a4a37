import Recorder.Storage.Redis
import Mathlib.Data.List.Nodup

/-!
# The Redis tag index

Every successful `Save` of the Redis backend adds the record's key to one set per tag: the set
`<Prefix>:tag:<k>:<v>` for each tag `k=v` of the record, after `request_id` and `record_type`
are set in its tag map (`indexTags`). `FindByTag(tag)` returns the members of
`<Prefix>:tag:<tag>`.

- `sadd`, `updateTagIndex`: membership of each set, key by key, and that a set after indexing
  depends only on that set before (that a set never holds a member twice is a field of
  `RedisState`, which `sadd` re-establishes);
- `save_eq`: what one `Save` does to the server (the inversion lemma the rest uses);
- **`findByTag_saveAll`**: after any run of successful saves, `FindByTag(tag)` returns, without
  duplicates, what the set held before together with the keys of the saved records one of whose
  indexed tags `k=v` reads `tag` as `k ++ ":" ++ v`.

Nothing separates the key from the value in a set's name: the tags `a=b:c` and `a:b=c` land in
the same set, and `FindByTag("a:b:c")` returns the records of both.
-/

namespace Recorder

namespace RedisState

@[simp] theorem set_sets (st : RedisState) (key : String) (value : Bytes) :
    (st.set key value).sets = st.sets := rfl

variable {st : RedisState} {key member k x : String}

theorem mem_sadd : x ∈ (st.sadd key member).sets k ↔ x ∈ st.sets k ∨ (k = key ∧ x = member) := by
  simp only [sadd]
  split_ifs with h
  · simp only [List.mem_append, List.mem_singleton, h.1, true_and]
  · constructor
    · exact .inl
    · rintro (hx | ⟨rfl, rfl⟩)
      · exact hx
      · exact not_not.mp fun hm => h ⟨rfl, hm⟩

theorem sadd_sets_of_ne (h : k ≠ key) : (st.sadd key member).sets k = st.sets k := by
  simp [sadd, h]

/-- A set after `SADD` depends only on that set before. -/
theorem sadd_sets_congr {st' : RedisState} (h : st.sets k = st'.sets k) :
    (st.sadd key member).sets k = (st'.sadd key member).sets k := by
  simp only [sadd, h]

end RedisState

namespace Redis

variable (opts : RedisOptions) (codec : Codec)

/-- The tags a save of `record`, of type directory `pfx`, indexes the record's key under: the
caller's, with `request_id` set to the record's id and `record_type` to `pfx`. -/
def indexTags (pfx : String) (record : Record) : Tags :=
  setTag (setTag record.tags "request_id" (record.storageID ":")) "record_type" pfx

theorem tagKey_eq_tagKey {a b : String} : tagKey opts a = tagKey opts b ↔ a = b := by
  refine ⟨fun h => ?_, congrArg _⟩
  have hd := congrArg String.data h
  simp only [tagKey, String.data_append] at hd
  exact String.ext (List.append_cancel_left hd)

/-- `updateTagIndex` adds `item` to the set of each tag and to no other. -/
theorem mem_updateTagIndex (tags : Tags) (item k x : String) :
    ∀ st : RedisState, x ∈ (updateTagIndex opts st tags item).sets k ↔
      x ∈ st.sets k ∨ (x = item ∧ ∃ e ∈ tags, tagKey opts (e.1 ++ ":" ++ e.2) = k) := by
  induction tags with
  | nil => intro st; simp [updateTagIndex]
  | cons e rest ih =>
    intro st
    rw [updateTagIndex, List.foldl_cons, ← updateTagIndex, ih, RedisState.mem_sadd]
    simp only [List.mem_cons, exists_eq_or_imp]
    constructor
    · rintro ((hx | ⟨rfl, rfl⟩) | ⟨rfl, he⟩)
      exacts [.inl hx, .inr ⟨rfl, .inl rfl⟩, .inr ⟨rfl, .inr he⟩]
    · rintro (hx | ⟨rfl, rfl | he⟩)
      exacts [.inl (.inl hx), .inl (.inr ⟨rfl, rfl⟩), .inr ⟨rfl, he⟩]

theorem updateTagIndex_append (st : RedisState) (tags tags' : Tags) (item : String) :
    updateTagIndex opts st (tags ++ tags') item =
      updateTagIndex opts (updateTagIndex opts st tags item) tags' item :=
  List.foldl_append _ _ _ _

/-- A set after indexing depends only on that set before. -/
theorem updateTagIndex_sets_congr (tags : Tags) (item k : String) :
    ∀ {st st' : RedisState}, st.sets k = st'.sets k →
      (updateTagIndex opts st tags item).sets k = (updateTagIndex opts st' tags item).sets k := by
  induction tags with
  | nil => exact id
  | cons e rest ih => exact fun h => ih (RedisState.sadd_sets_congr h)

/-- What one `Save` does: nothing, or set the record's key and index it under its tags. -/
theorem save_eq {st st' : RedisState} {record : Record} {res : Except String Unit}
    (h : save opts codec st record = (res, st')) :
    (∃ e, res = .error e ∧ st' = st) ∨ ∃ pfx c, res = .ok () ∧ prefixFor record.type = .ok pfx ∧
      codec.compressData record.payload opts.compressionLvl = .ok c ∧
      st' = updateTagIndex opts (st.set (dataKey opts pfx (record.storageID ":")) c)
        (indexTags pfx record) (dataKey opts pfx (record.storageID ":")) := by
  unfold save at h
  split_ifs at h
  · cases h
    exact .inl ⟨_, rfl, rfl⟩
  · cases h
    exact .inl ⟨_, rfl, rfl⟩
  split at h
  · cases h
    exact .inl ⟨_, rfl, rfl⟩
  · rename_i pfx hpfx
    split at h
    · cases h
      exact .inl ⟨_, rfl, rfl⟩
    · rename_i c hc
      cases h
      exact .inr ⟨pfx, c, rfl, hpfx, hc, rfl⟩

/-- The sets after a run of successful saves, key by key. -/
theorem mem_saveAll_sets {records : List Record} :
    ∀ {s s' : RedisState}, (storage opts codec).saveAll s records = some s' → ∀ k x,
      x ∈ s'.sets k ↔ x ∈ s.sets k ∨ ∃ r ∈ records, ∃ pfx, prefixFor r.type = .ok pfx ∧
        x = dataKey opts pfx (r.storageID ":") ∧
        ∃ e ∈ indexTags pfx r, tagKey opts (e.1 ++ ":" ++ e.2) = k := by
  induction records with
  | nil =>
    intro s s' h k x
    cases h
    simp
  | cons r rest ih =>
    intro s s' h k x
    simp only [Storage.saveAll] at h
    split at h
    · rename_i s₁ hsave
      rcases save_eq opts codec hsave with ⟨e, he, -⟩ | ⟨pfx, c, -, hpfx, -, rfl⟩
      · cases he
      rw [ih h k x, mem_updateTagIndex]
      simp only [List.mem_cons, exists_eq_or_imp, hpfx, Except.ok.injEq, exists_eq_left', or_assoc]
      rfl
    · cases h

/-- **The tag index after a run of saves.** After any run of successful saves, `FindByTag(tag)`
returns, without duplicates (`SADD` adds a member once), the members its set had before,
together with the key of every saved record one of whose indexed tags `k=v` has
`k ++ ":" ++ v = tag`. -/
theorem findByTag_saveAll {s s' : RedisState} {records : List Record}
    (hrun : (storage opts codec).saveAll s records = some s') {tag : String} (htag : tag ≠ "") :
    ∃ keys, findByTag opts s' tag = .ok keys ∧ keys.Nodup ∧
      ∀ x, x ∈ keys ↔ x ∈ s.sets (tagKey opts tag) ∨
        ∃ r ∈ records, ∃ pfx, prefixFor r.type = .ok pfx ∧ x = dataKey opts pfx (r.storageID ":") ∧
          ∃ e ∈ indexTags pfx r, e.1 ++ ":" ++ e.2 = tag := by
  refine ⟨_, if_neg htag, s'.sets_nodup _, fun x => ?_⟩
  simp only [mem_saveAll_sets opts codec hrun _ x, tagKey_eq_tagKey]

/-- Two requests saved from the empty server, one tagged `env=prod`: `FindByTag("env:prod")`
returns the key of that one. -/
theorem findByTag_saveAll_env :
    (storage ⟨"recorder", 3⟩ ⟨fun d _ => .ok d, .ok⟩).saveAll RedisState.empty
        [⟨"request", none, "req1", [1], [("env", "prod")]⟩, ⟨"request", none, "req2", [2], []⟩] =
      some ((save ⟨"recorder", 3⟩ ⟨fun d _ => .ok d, .ok⟩ (save ⟨"recorder", 3⟩ ⟨fun d _ => .ok d, .ok⟩
        RedisState.empty ⟨"request", none, "req1", [1], [("env", "prod")]⟩).2
          ⟨"request", none, "req2", [2], []⟩).2) ∧
    "env:prod" ≠ "" ∧
    ∃ keys, findByTag ⟨"recorder", 3⟩ (save ⟨"recorder", 3⟩ ⟨fun d _ => .ok d, .ok⟩
        (save ⟨"recorder", 3⟩ ⟨fun d _ => .ok d, .ok⟩ RedisState.empty
          ⟨"request", none, "req1", [1], [("env", "prod")]⟩).2
        ⟨"request", none, "req2", [2], []⟩).2 "env:prod" = .ok keys ∧ keys.Nodup ∧
      ∀ x, x ∈ keys ↔ x ∈ RedisState.empty.sets (tagKey ⟨"recorder", 3⟩ "env:prod") ∨
        ∃ r ∈ [(⟨"request", none, "req1", [1], [("env", "prod")]⟩ : Record),
            ⟨"request", none, "req2", [2], []⟩], ∃ pfx, prefixFor r.type = .ok pfx ∧
          x = dataKey ⟨"recorder", 3⟩ pfx (r.storageID ":") ∧
          ∃ e ∈ indexTags pfx r, e.1 ++ ":" ++ e.2 = "env:prod" :=
  have hrun : (storage ⟨"recorder", 3⟩ ⟨fun d _ => .ok d, .ok⟩).saveAll RedisState.empty
      [⟨"request", none, "req1", [1], [("env", "prod")]⟩, ⟨"request", none, "req2", [2], []⟩] =
    some ((save ⟨"recorder", 3⟩ ⟨fun d _ => .ok d, .ok⟩ (save ⟨"recorder", 3⟩
      ⟨fun d _ => .ok d, .ok⟩ RedisState.empty ⟨"request", none, "req1", [1], [("env", "prod")]⟩).2
        ⟨"request", none, "req2", [2], []⟩).2) := rfl
  ⟨hrun, by decide, findByTag_saveAll _ _ hrun (by decide)⟩

end Redis

end Recorder
