import OpenJobSpec.Sse.Reconnection

/-! # The id a reconnect resumes from

The last event ID buffer is committed at each blank line, and a connection that
breaks off takes the uncommitted part with it. A session tracks the id of the
last event instead. The two differ on the blocks that give no event, and a
client cannot send every id as a header.
-/
namespace OpenJobSpec.Sse

/-- The buffer as it is, and as it stood at the last blank line. -/
structure IdBuffer where
  current : String
  committed : String

def IdBuffer.read (b : IdBuffer) (line : String) : IdBuffer :=
  if line = "" then ⟨b.current, b.current⟩ else ⟨idAfter b.current [line], b.committed⟩

/-- The id as it stood at the last blank line of a connection that began with this id. -/
def committedId (id : String) (lines : List String) : String :=
  (lines.foldl IdBuffer.read ⟨id, id⟩).committed

/-- The id as it stood at the last blank line over all these connections. -/
def resumptionId (connections : List Connection) : String :=
  connections.foldl (fun id c => committedId id c.lines) ""

/-- The value of the Last-Event-ID header; an empty id is not sent. -/
def sentId (id : String) : Option String := if id = "" then none else some id

/-- The blocks after the last one with data leave the id that was in force there. -/
def Announced (id : String) (bs : List Block) : Prop :=
  ∀ value, ((bs.rtakeWhile Block.quiet).flatten.filterMap idValue).getLast? = some value →
    value = idAfter id (bs.rdropWhile Block.quiet).flatten

/-- The n-th connection and those before it are each followed by another one. -/
def FollowedThrough (s : SubscriptionSession) (env : Environment) (connections : List Connection)
    (n : ℕ) : Prop :=
  ∀ i ≤ n, ∃ c, connections[i]? = some c ∧ Followed s env i c

theorem committedId_eq (id : String) (lines : List String) :
    committedId id lines = idAfter id (blocks lines).flatten := by
  have hfrom : ∀ (lines : List String) (id : String) (block : Block),
      (lines.foldl IdBuffer.read ⟨idAfter id block, id⟩).committed =
        idAfter id (blocksFrom block lines).flatten := by
    intro lines
    induction lines with
    | nil => exact fun _ _ => rfl
    | cons line rest ih =>
      intro id block
      rw [List.foldl_cons, IdBuffer.read, blocksFrom]
      by_cases hline : line = ""
      · rw [if_pos hline, if_pos hline, List.flatten_cons, idAfter_append]
        exact ih (idAfter id block) []
      · rw [if_neg hline, if_neg hline, ← idAfter_append]
        exact ih id (block ++ [line])
  exact hfrom lines id []

theorem announced_iff (id : String) (bs : List Block) :
    Announced id bs ↔
      idAfter id bs.flatten = idAfter id (bs.rdropWhile Block.quiet).flatten := by
  have hsplit : bs.rdropWhile Block.quiet ++ bs.rtakeWhile Block.quiet = bs :=
    List.rdropWhile_append_rtakeWhile
  have hid : idAfter id bs.flatten =
      idAfter (idAfter id (bs.rdropWhile Block.quiet).flatten)
        (bs.rtakeWhile Block.quiet).flatten := by
    rw [← idAfter_append, ← List.flatten_append, hsplit]
  rw [hid]
  unfold Announced
  generalize idAfter id (bs.rdropWhile Block.quiet).flatten = heard
  rw [idAfter]
  rcases ((bs.rtakeWhile Block.quiet).flatten.filterMap idValue).getLast? with _ | value
  · simp
  · simp

theorem sentId_injective : Function.Injective sentId := by
  intro a b h
  unfold sentId at h
  by_cases ha : a = ""
  · by_cases hb : b = ""
    · rw [ha, hb]
    · simp [ha, hb] at h
  · by_cases hb : b = ""
    · simp [ha, hb] at h
    · simpa [ha, hb] using h

section Session
variable (s : SubscriptionSession) (env : Environment)

theorem headers_lookup (id : String) : (s.headers id).lookup "Last-Event-ID" = sentId id := by
  unfold SubscriptionSession.headers sentId
  rcases s.auth with _ | auth
  · by_cases hid : id = ""
    · simp [hid, List.lookup_cons]
    · simp [hid, List.lookup_cons]
  · by_cases ha : auth = ""
    · by_cases hid : id = ""
      · simp [hid, ha, List.lookup_cons]
      · simp [hid, ha, List.lookup_cons]
    · by_cases hid : id = ""
      · simp [hid, ha, List.lookup_cons]
      · simp [hid, ha, List.lookup_cons]

/-- The id a session tracks over a connection that drops. -/
def heardId (id : String) (c : Connection) : String :=
  idAfter id ((blocks c.lines).rdropWhile Block.quiet).flatten

/-- A request follows exactly the connections that are each followed by another, and carries the
id that was heard over them. -/
theorem loop_requests_iff (connections : List Connection) (n : ℕ) (id : String) (k : ℕ)
    (headers : List (String × String)) :
    (s.loop env n id connections).requests[k]? = some headers ↔
      (∀ i < k, ∃ c, connections[i]? = some c ∧ Followed s env (n + i) c) ∧
        headers = s.headers ((connections.take k).foldl heardId id) := by
  induction connections generalizing n id k with
  | nil =>
    rw [SubscriptionSession.loop]
    cases k with
    | zero => simp [eq_comm]
    | succ k =>
      simp only [List.getElem?_cons_succ, List.getElem?_nil, reduceCtorEq, false_iff, not_and]
      intro h
      obtain ⟨c, hc, _⟩ := h 0 k.succ_pos
      cases hc
  | cons c rest ih =>
    have hgo := followed_iff s env id n c
    cases k with
    | zero =>
      have hhead : (s.loop env n id (c :: rest)).requests[0]? = some (s.headers id) := by
        rw [SubscriptionSession.loop]
        dsimp only
        split
        · rfl
        · split
          · rfl
          · split <;> rfl
      simp [hhead, eq_comm]
    | succ k =>
      by_cases hf : Followed s env n c
      · obtain ⟨hclose, ⟨delay, hnext⟩, hslept⟩ := hgo.mp hf
        obtain ⟨hevents, hnone⟩ := consumeOnce_events s env id hf.drops
        have hid : SubscriptionSession.lastIdOf id (s.consumeOnce env id c).1 = heardId id c := by
          rw [hevents, readBlocks_lastId _ _ hnone, heardId]
        have htail : (s.loop env n id (c :: rest)).requests =
            s.headers id :: (s.loop env (n + 1) (heardId id c) rest).requests := by
          rw [SubscriptionSession.loop]
          simp only [hclose, hnext, hslept, hid, Bool.false_eq_true, if_false]
        rw [htail, List.getElem?_cons_succ, ih, List.take_succ_cons, List.foldl_cons]
        refine and_congr_left fun _ => ⟨fun h i hi => ?_, fun h i hi => ?_⟩
        · cases i with
          | zero => exact ⟨c, rfl, hf⟩
          | succ i =>
            obtain ⟨c', hc', hf'⟩ := h i (Nat.lt_of_succ_lt_succ hi)
            exact ⟨c', hc', by rwa [Nat.add_right_comm] at hf'⟩
        · obtain ⟨c', hc', hf'⟩ := h (i + 1) (Nat.succ_lt_succ hi)
          exact ⟨c', hc', by rwa [Nat.add_right_comm]⟩
      · refine iff_of_false ?_ ?_
        · rw [SubscriptionSession.loop]
          dsimp only
          split
          next => simp [SubscriptionSession.leave]
          next hclose =>
            split
            next => simp [SubscriptionSession.leave]
            next delay hnext =>
              split
              next => simp [SubscriptionSession.leave]
              next hslept =>
                exact absurd (hgo.mpr ⟨by simpa using hclose, ⟨delay, hnext⟩, hslept⟩) hf
        · rintro ⟨h, _⟩
          obtain ⟨c', hc', hf'⟩ := h 0 k.succ_pos
          cases hc'
          exact hf hf'

theorem events_requests_iff (connections : List Connection) (k : ℕ)
    (headers : List (String × String)) :
    (s.events env connections).requests[k]? = some headers ↔
      (∀ i < k, ∃ c, connections[i]? = some c ∧ Followed s env i c) ∧
        headers = s.headers ((connections.take k).foldl heardId "") := by
  have h := loop_requests_iff s env connections 0 "" k headers
  simp only [Nat.zero_add] at h
  exact h

/-- The client sends these headers. -/
def Sent (headers : List (String × String)) : Prop :=
  ∀ value, headers.lookup "Last-Event-ID" = some value → env.refuses value = none

/-- The client can send a request that resumes from this id. -/
def Sendable (id : String) : Prop := id ≠ "" → env.refuses id = none

/-- Every request is sent, and names the id as it stood at the last blank line of the connections
before it. -/
def FollowsIdRule (connections : List Connection) : Prop :=
  ∀ k headers, (s.eventsOver env connections).requests[k]? = some headers →
    Sent env headers ∧
      headers.lookup "Last-Event-ID" = sentId (resumptionId (connections.take k))

theorem sent_headers_iff (id : String) : Sent env (s.headers id) ↔ Sendable env id := by
  unfold Sent Sendable
  rw [headers_lookup]
  unfold sentId
  by_cases h : id = ""
  · simp [h]
  · simp [h]

theorem meets_of_sendable {id : String} (h : Sendable env id) (c : Connection) :
    SubscriptionSession.meets env id c = c := by
  unfold SubscriptionSession.meets
  by_cases hid : id = ""
  · rw [if_pos hid]
  · rw [if_neg hid, h hid]

/-- While the client can send the id heard, a session meets the connections of the network. -/
theorem met_take {id : String} {connections : List Connection} {k : ℕ}
    (h : ∀ i < k, ∃ c, connections[i]? = some c ∧ c.Drops env.loads s.malformedData ∧
      Sendable env ((connections.take i).foldl heardId id)) :
    (s.met env id connections).take k = connections.take k ∧
      (s.met env id connections)[k]? = connections[k]?.map
        (SubscriptionSession.meets env ((connections.take k).foldl heardId id)) := by
  induction connections generalizing id k with
  | nil => exact ⟨rfl, rfl⟩
  | cons c rest ih =>
    cases k with
    | zero => exact ⟨rfl, rfl⟩
    | succ k =>
      obtain ⟨c', hc', hdrops, hsendable⟩ := h 0 k.succ_pos
      cases hc'
      have hmeets : SubscriptionSession.meets env id c = c := meets_of_sendable env hsendable c
      obtain ⟨hevents, hnone⟩ := consumeOnce_events s env id hdrops
      have hid : SubscriptionSession.lastIdOf id (s.consumeOnce env id c).1 = heardId id c := by
        rw [hevents, readBlocks_lastId _ _ hnone, heardId]
      have hmet : s.met env id (c :: rest) = c :: s.met env (heardId id c) rest := by
        simp only [SubscriptionSession.met, hmeets, hid]
      obtain ⟨htake, hget⟩ := ih fun i hi => h (i + 1) (Nat.succ_lt_succ hi)
      rw [hmet, List.take_succ_cons, List.take_succ_cons, htake, List.getElem?_cons_succ,
        List.getElem?_cons_succ, hget, List.foldl_cons]
      exact ⟨rfl, rfl⟩

end Session

section Rule
variable {s : SubscriptionSession} {env : Environment} {connections : List Connection}

theorem resumptionId_succ {k : ℕ} {c : Connection} (h : connections[k]? = some c) :
    resumptionId (connections.take (k + 1)) =
      idAfter (resumptionId (connections.take k)) (blocks c.lines).flatten := by
  rw [List.take_add_one, h, Option.toList_some, resumptionId, List.foldl_append, List.foldl_cons,
    List.foldl_nil, committedId_eq]
  rfl

theorem heard_succ {k : ℕ} {c : Connection} (h : connections[k]? = some c) :
    (connections.take (k + 1)).foldl heardId "" =
      heardId ((connections.take k).foldl heardId "") c := by
  rw [List.take_add_one, h, Option.toList_some, List.foldl_append, List.foldl_cons, List.foldl_nil]

/-- Where each followed connection announces its last id, the id heard is the id of the rule. -/
theorem heard_eq_resumptionId
    (h : ∀ k c, connections[k]? = some c → FollowedThrough s env connections k →
      Announced (resumptionId (connections.take k)) (blocks c.lines)) {k : ℕ}
    (hk : ∀ i < k, ∃ c, connections[i]? = some c ∧ Followed s env i c) :
    (connections.take k).foldl heardId "" = resumptionId (connections.take k) := by
  induction k with
  | zero => rfl
  | succ k ih =>
    obtain ⟨c, hc, hf⟩ := hk k k.lt_succ_self
    have hthrough : FollowedThrough s env connections k := fun i hi => hk i (Nat.lt_succ_of_le hi)
    have hann := (announced_iff _ _).mp (h k c hc hthrough)
    rw [heard_succ hc, resumptionId_succ hc, ih fun i hi => hk i (Nat.lt_succ_of_lt hi), hann]
    rfl

/-- After connections that are each followed by another, and ids that the client can send, there is
a request that names the id heard. -/
theorem request_after {k : ℕ} (hk : ∀ i < k, ∃ c, connections[i]? = some c ∧ Followed s env i c)
    (hs : ∀ i < k, Sendable env ((connections.take i).foldl heardId "")) :
    (s.eventsOver env connections).requests[k]? =
      some (s.headers ((connections.take k).foldl heardId "")) := by
  have htake : (s.met env "" connections).take k = connections.take k := by
    refine (met_take s env fun i hi => ?_).1
    obtain ⟨c, hc, hf⟩ := hk i hi
    exact ⟨c, hc, hf.drops, hs i hi⟩
  refine (events_requests_iff s env _ k _).mpr ⟨fun i hi => ?_, by rw [htake]⟩
  rw [← List.getElem?_take_of_lt hi, htake, List.getElem?_take_of_lt hi]
  exact hk i hi

/-- By the rule the client can send every id heard over connections that others follow. -/
theorem sendable_of_rule (h : FollowsIdRule s env connections) {k : ℕ}
    (hk : ∀ i < k, ∃ c, connections[i]? = some c ∧ Followed s env i c) :
    ∀ i ≤ k, Sendable env ((connections.take i).foldl heardId "") := by
  intro i
  induction i using Nat.strong_induction_on with
  | _ i ih =>
    intro hi
    have hrequest := request_after (fun j hj => hk j (hj.trans_le hi))
      fun j hj => ih j hj (hj.le.trans hi)
    exact (sent_headers_iff s env _).mp (h i _ hrequest).1

/-- What a request needs to follow the rule: the blocks after the last block with data do not change
the id on the connection before it, and the client can send the id. -/
structure Resumable (env : Environment) (connections : List Connection) (k : ℕ) (c : Connection) :
    Prop where
  announced : Announced (resumptionId (connections.take k)) (blocks c.lines)
  sendable : Sendable env (resumptionId (connections.take (k + 1)))

/-- A session whose requests can be sent meets the connections of the network as far as it goes. -/
theorem followed_of_resumable
    (h : ∀ k c, connections[k]? = some c → FollowedThrough s env connections k →
      Resumable env connections k c) {k : ℕ}
    (hk : ∀ i < k, ∃ c, (s.met env "" connections)[i]? = some c ∧ Followed s env i c) :
    (∀ i < k, ∃ c, connections[i]? = some c ∧ Followed s env i c) ∧
      (connections.take k).foldl heardId "" = resumptionId (connections.take k) ∧
      ∀ i ≤ k, Sendable env ((connections.take i).foldl heardId "") := by
  induction k with
  | zero =>
    refine ⟨fun i hi => absurd hi i.not_lt_zero, rfl, fun i hi => ?_⟩
    obtain rfl := Nat.le_zero.mp hi
    exact fun hne => absurd rfl hne
  | succ k ih =>
    obtain ⟨hbefore, -, hsendable⟩ := ih fun i hi => hk i (Nat.lt_succ_of_lt hi)
    obtain ⟨c, hc, hf⟩ := hk k k.lt_succ_self
    have hmet : (s.met env "" connections)[k]? = connections[k]? := by
      rw [(met_take s env fun i hi => ?_).2]
      · rw [show SubscriptionSession.meets env ((connections.take k).foldl heardId "") = id from
          funext (meets_of_sendable env (hsendable k le_rfl)), Option.map_id, id]
      · obtain ⟨c', hc', hf'⟩ := hbefore i hi
        exact ⟨c', hc', hf'.drops, hsendable i hi.le⟩
    rw [hmet] at hc
    have hthrough : FollowedThrough s env connections k := by
      intro i hi
      rcases Nat.lt_or_eq_of_le hi with hlt | rfl
      · exact hbefore i hlt
      · exact ⟨c, hc, hf⟩
    have hupto : ∀ i < k + 1, ∃ c, connections[i]? = some c ∧ Followed s env i c :=
      fun i hi => hthrough i (Nat.le_of_lt_succ hi)
    have hheard := heard_eq_resumptionId (fun j c hc hj => (h j c hc hj).announced) hupto
    refine ⟨hupto, hheard, fun i hi => ?_⟩
    rcases Nat.lt_or_eq_of_le hi with hlt | rfl
    · exact hsendable i (Nat.le_of_lt_succ hlt)
    · rw [hheard]
      exact (h k c hc hthrough).sendable

/-- Resumption follows the rule exactly when, on every connection that another one follows, the
blocks after the last block with data do not change the id, and the client can send the id in a
header. -/
theorem resumption_follows_rule_iff (s : SubscriptionSession) (env : Environment)
    (connections : List Connection) :
    FollowsIdRule s env connections ↔
      ∀ k c, connections[k]? = some c → FollowedThrough s env connections k →
        Resumable env connections k c := by
  constructor
  · intro h k c hc hthrough
    have hbefore : ∀ i < k, ∃ c, connections[i]? = some c ∧ Followed s env i c :=
      fun i hi => hthrough i hi.le
    have hupto : ∀ i < k + 1, ∃ c, connections[i]? = some c ∧ Followed s env i c :=
      fun i hi => hthrough i (Nat.le_of_lt_succ hi)
    have hsendable := sendable_of_rule h hupto
    -- what the session sends on these two connections is the id it heard
    have hk := (h k _ (request_after hbefore fun i hi => hsendable i (hi.le.trans k.le_succ))).2
    have hnext := (h (k + 1) _ (request_after hupto fun i hi => hsendable i hi.le)).2
    rw [headers_lookup] at hk hnext
    have hheard := sentId_injective hk
    have hheard' := sentId_injective hnext
    refine ⟨?_, by rw [← hheard']; exact hsendable (k + 1) le_rfl⟩
    rw [heard_succ hc, hheard, resumptionId_succ hc] at hheard'
    exact (announced_iff _ _).mpr hheard'.symm
  · intro h k headers hk
    obtain ⟨hmet, rfl⟩ := (events_requests_iff s env _ k headers).mp hk
    obtain ⟨hbefore, hheard, hsendable⟩ := followed_of_resumable h hmet
    have htake : (s.met env "" connections).take k = connections.take k := by
      refine (met_take s env fun i hi => ?_).1
      obtain ⟨c, hc, hf⟩ := hbefore i hi
      exact ⟨c, hc, hf.drops, hsendable i hi.le⟩
    rw [htake, sent_headers_iff, headers_lookup, hheard]
    exact ⟨hheard ▸ hsendable k le_rfl, rfl⟩

end Rule

def exampleSession : SubscriptionSession where
  streamUrl := "http://h/ojs/v1/events/stream"
  channel := "all"
  auth := none
  malformedData := .raw
  reconnect := true
  maxReconnects := 1
  reconnectDelay := .int 0
  ownsClient := true
  channel_ne := by decide
  delay_nonneg := by decide

def exampleEnvironment : Environment where
  loads text :=
    if text = "\x7b\x7d" then .ok (.object []) else .error .decodeError
  reader := ⟨fun _ => none, fun _ => none, fun _ => none, fun _ => none, 0⟩
  closesAt _ := none
  sleep _ := none
  aclose := none
  refuses := httpxRefuses

/-- An event, then a block that carries an id alone. -/
def idAlone : Connection :=
  .response ⟨200, [], "", .error (.valueError, ""), none,
    ["id: evt-1", "data: \x7b\x7d", "", "id: evt-2", ""], none⟩

/-- An event whose id is no ASCII. -/
def accentedId : Connection :=
  .response ⟨200, [], "", .error (.valueError, ""), none, ["id: caf\u00e9", "data: \x7b\x7d", ""],
    none⟩

/-- The id of a block without data is forgotten, and an id with an accent ends the iteration before
its request is sent. -/
theorem id_alone_forgotten :
    ¬ FollowsIdRule exampleSession exampleEnvironment [idAlone] ∧
      ¬ FollowsIdRule exampleSession exampleEnvironment [accentedId, idAlone] ∧
      (exampleSession.eventsOver exampleEnvironment [accentedId, idAlone]).outcome =
        some (.raised (.exception (.other "UnicodeEncodeError" "'ascii' codec can't encode"))) := by
  refine ⟨fun h => ?_, fun h => ?_, by rfl⟩
  · have hsent : ((exampleSession.eventsOver exampleEnvironment [idAlone]).requests[1]?.map
        fun headers => headers.lookup "Last-Event-ID") = some (some "evt-1") := by decide +kernel
    have hrule : sentId (resumptionId ([idAlone].take 1)) = some "evt-2" := by decide +kernel
    obtain ⟨headers, hheaders, hlookup⟩ := Option.map_eq_some_iff.mp hsent
    rw [(h 1 headers hheaders).2, hrule] at hlookup
    exact absurd hlookup (by decide)
  · have hsent :
        ((exampleSession.eventsOver exampleEnvironment [accentedId, idAlone]).requests[1]?.map
          fun headers => headers.lookup "Last-Event-ID") = some (some "caf\u00e9") := by
      decide +kernel
    obtain ⟨headers, hheaders, hlookup⟩ := Option.map_eq_some_iff.mp hsent
    exact absurd ((h 1 headers hheaders).1 _ hlookup) (by decide +kernel)

end OpenJobSpec.Sse
