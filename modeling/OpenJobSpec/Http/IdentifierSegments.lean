import OpenJobSpec.Http.ResourcePaths

/-! # Identifiers as single segments of a path

What a path resolves to is compared with the fixed segments of its operation. A
segment that decodes to an identifier is at least as long as the identifier, so
where the identifier stands for itself nothing of the path can have been lost.
-/
namespace OpenJobSpec.Http
open ExceptRules UrlPath

namespace ResourceOperation

/-- The segments before the identifier. -/
def before (operation : ResourceOperation) : List Segment :=
  (match operation with
    | .info | .cancel | .getProgress => ["ojs", "v1", "jobs"]
    | .queueStats | .pauseQueue | .resumeQueue => ["ojs", "v1", "queues"]
    | .getWorkflow | .cancelWorkflow => ["ojs", "v1", "workflows"]
    | .retryDeadLetterJob | .deleteDeadLetterJob => ["ojs", "v1", "dead-letter"]
    | .unregisterCronJob => ["ojs", "v1", "cron"]
    | .getSchema | .deleteSchema => ["ojs", "v1", "schemas"]
    | .checkpoint | .complete | .loadReplayLog => ["ojs", "v1", "checkpoints"]).map String.toList

/-- The segments after the identifier. -/
def after (operation : ResourceOperation) : List Segment :=
  (match operation with
    | .getProgress => ["progress"]
    | .queueStats => ["stats"]
    | .pauseQueue => ["pause"]
    | .resumeQueue => ["resume"]
    | .retryDeadLetterJob => ["retry"]
    | .loadReplayLog => ["resume"]
    | _ => []).map String.toList

def quotes : ResourceOperation → Bool
  | .queueStats | .pauseQueue | .resumeQueue => false
  | _ => true

/-- The text of the path with a given segment. -/
def template (operation : ResourceOperation) (segment : Segment) : List Char :=
  joined (operation.before ++ segment :: operation.after)

/-! ## The text of a path -/

/-- A path has its operation's segments around an identifier that is quoted or not. -/
theorem path_eq (operation : ResourceOperation) (identifier : PyText) :
    ∃ b a : String, ojsBasePath.toList ++ b.toList = joined operation.before ++ ['/'] ∧
      a.toList = joined operation.after ∧
      operation.path identifier =
        if operation.quotes then quotedPath b identifier a else plainPath b identifier a := by
  cases operation with
  | loadReplayLog =>
    refine ⟨"/checkpoints/", "/resume", rfl, rfl, ?_⟩
    rw [path, Durable.resumePath, Durable.checkpointPath, quotedPath, quotedPath]
    cases quote identifier with
    | error e => rfl
    | ok segment =>
      change Except.ok (PyText.ofString ("/checkpoints/" ++ segment ++ "") ++
        PyText.ofString "/resume") = Except.ok (PyText.ofString ("/checkpoints/" ++ segment ++
          "/resume"))
      rw [String.append_empty]
      simp [PyText.ofString]
  | _ => exact ⟨_, _, rfl, rfl, rfl⟩

theorem template_text {operation : ResourceOperation} {b a : String}
    (hb : ojsBasePath.toList ++ b.toList = joined operation.before ++ ['/'])
    (ha : a.toList = joined operation.after) (x : Segment) :
    PyText.ofString ojsBasePath ++ (PyText.ofString b ++ x.map .scalar ++ PyText.ofString a) =
      PyText.ofString (String.ofList (operation.template x)) := by
  have htemplate : operation.template x = ojsBasePath.toList ++ b.toList ++ x ++ a.toList := by
    rw [template, joined_append, hb, ha, List.append_assoc, List.append_assoc]
    rfl
  rw [htemplate]
  simp [PyText.ofString]

theorem url_quoted {operation : ResourceOperation} (hquotes : operation.quotes = true)
    {identifier : PyText} {segment : String} (h : quote identifier = .ok segment) :
    operation.url identifier =
      .ok (PyText.ofString (String.ofList (operation.template segment.toList))) := by
  obtain ⟨b, a, hb, ha, hpath⟩ := operation.path_eq identifier
  have hsplit : PyText.ofString (b ++ segment ++ a) =
      PyText.ofString b ++ segment.toList.map .scalar ++ PyText.ofString a := by
    simp [PyText.ofString]
  rw [url, hpath, if_pos hquotes, quotedPath, h, ← template_text hb ha, ← hsplit]
  rfl

theorem url_plain {operation : ResourceOperation} (hquotes : operation.quotes = false)
    (x : Segment) : operation.url (x.map .scalar) =
      .ok (PyText.ofString (String.ofList (operation.template x))) := by
  obtain ⟨b, a, hb, ha, hpath⟩ := operation.path_eq (x.map .scalar)
  rw [url, hpath, if_neg (by rw [hquotes]; exact Bool.false_ne_true), plainPath,
    ← template_text hb ha]
  rfl

/-! ## One segment -/

/-- The path that an identifier makes an operation ask for. -/
def Addresses (operation : ResourceOperation) (identifier : PyText) (path : List Segment) : Prop :=
  ∃ text : String, operation.url identifier = .ok (PyText.ofString text) ∧
    resolve text.toList = some path

/-- The fixed segments of the operation, around one segment that decodes to the identifier. -/
def OneSegment (operation : ResourceOperation) (identifier : PyText) : Prop :=
  ∃ segment bytes,
    operation.Addresses identifier (operation.before ++ segment :: operation.after) ∧
    decode segment = some bytes ∧ identifier.encode = .ok bytes

/-- A character that stands for itself in a segment. -/
def isPlainChar : PyChar → Bool
  | .scalar c => isPlain c
  | .surrogate _ => false

/-- No dot segment, and nothing but characters that are quoted or stand for themselves. -/
def Contained (operation : ResourceOperation) (identifier : PyText) : Prop :=
  identifier ≠ PyText.ofString "." ∧ identifier ≠ PyText.ofString ".." ∧
    if operation.quotes then identifier.all PyText.isScalar = true
    else identifier.all isPlainChar = true

theorem fixed_segments (operation : ResourceOperation) :
    (∀ s ∈ operation.before, Clean s ∧ Regular s) ∧
      ∀ s ∈ operation.after, Clean s ∧ Regular s := by
  have hall : (operation.before ++ operation.after).all
      (fun s => s.all isPlain && decide (Regular s)) = true := by
    cases operation <;> decide
  have hfixed : ∀ s ∈ operation.before ++ operation.after, Clean s ∧ Regular s := by
    intro s hs
    have h := List.all_eq_true.mp hall s hs
    rw [Bool.and_eq_true, decide_eq_true_eq] at h
    exact ⟨clean_of_plain h.1, h.2⟩
  exact ⟨fun s hs => hfixed s (List.mem_append_left _ hs),
    fun s hs => hfixed s (List.mem_append_right _ hs)⟩

/-- A segment that is clean and no dot segment is what its path resolves to. -/
theorem resolve_template (operation : ResourceOperation) {s : Segment} (hclean : Clean s)
    (hregular : Regular s) :
    resolve (operation.template s) = some (operation.before ++ s :: operation.after) := by
  obtain ⟨hbefore, hafter⟩ := operation.fixed_segments
  have hall : ∀ t ∈ operation.before ++ s :: operation.after, Clean t ∧ Regular t := by
    intro t ht
    rcases List.mem_append.mp ht with ht | ht
    · exact hbefore t ht
    · rcases List.mem_cons.mp ht with rfl | ht
      · exact ⟨hclean, hregular⟩
      · exact hafter t ht
  exact resolve_joined (List.append_ne_nil_of_right_ne_nil _ (List.cons_ne_nil _ _))
    (fun t ht => (hall t ht).1) fun t ht => (hall t ht).2

theorem isPlain_of_alwaysSafe (c : Char) (h : alwaysSafe c = true) : isPlain c = true := by
  rw [alwaysSafe, Bool.or_eq_true] at h
  rw [isPlain, Bool.or_eq_true]
  refine h.imp_right fun hmem => ?_
  have hincluded : "_.-~".toList.all "-._~!$&'()*+,;=:@".toList.contains = true := by decide
  exact List.all_eq_true.mp hincluded c (List.contains_iff_mem.mp hmem)

theorem ascii_of_isPlain {c : Char} (h : isPlain c = true) : c.toNat < 128 := by
  rw [isPlain, Bool.or_eq_true] at h
  rcases h with hletter | hmem
  · -- the last letter and the last digit are below the bound
    have hbelow : ∀ last : Char, last.toNat < 128 → c.val ≤ last.val → c.toNat < 128 :=
      fun last hlast hle => (UInt32.le_iff_toNat_le.mp hle).trans_lt hlast
    change (c.isUpper || c.isLower || c.isDigit) = true at hletter
    rw [Bool.or_eq_true, Bool.or_eq_true] at hletter
    rcases hletter with (hupper | hlower) | hdigit
    · exact hbelow 'Z' (by decide) (of_decide_eq_true hupper).2
    · exact hbelow 'z' (by decide) (of_decide_eq_true (Bool.and_eq_true_iff.mp hlower).2)
    · exact hbelow '9' (by decide) (of_decide_eq_true (Bool.and_eq_true_iff.mp hdigit).2)
  · have hascii : "-._~!$&'()*+,;=:@".toList.all (fun c => decide (c.toNat < 128)) = true := by
      decide
    exact of_decide_eq_true (List.all_eq_true.mp hascii c (List.contains_iff_mem.mp hmem))

/-- An identifier without surrogates, by its characters. -/
theorem eq_map_scalar {identifier : PyText} {bytes : Bytes} (h : identifier.encode = .ok bytes) :
    ∃ x : Segment, identifier = x.map .scalar ∧ bytes = x.flatMap String.utf8EncodeChar := by
  unfold PyText.encode at h
  split at h
  next hall =>
    have hx := (PyText.map_scalars hall).symm
    refine ⟨identifier.scalars, hx, ?_⟩
    have hencode := PyText.encode_scalars identifier.scalars
    rw [← hx, PyText.encode, if_pos hall] at hencode
    exact (Except.ok.inj h).symm.trans (Except.ok.inj hencode)
  next => cases h

theorem quote_scalars (x : Segment) : quote (x.map .scalar) =
    .ok (String.ofList (encode alwaysSafe (x.flatMap String.utf8EncodeChar))) := by
  rw [quote, PyText.encode_scalars]
  rfl

/-- Dot segments are quoted as themselves. -/
theorem encode_dots {x : Segment} (h : ¬ Regular x) :
    encode alwaysSafe (x.flatMap String.utf8EncodeChar) = x := by
  rw [Regular, not_and_or, not_not, not_not] at h
  rcases h with rfl | rfl <;> decide

theorem regular_iff {x : Segment} :
    Regular x ↔ x.map PyChar.scalar ≠ PyText.ofString "." ∧
      x.map PyChar.scalar ≠ PyText.ofString ".." := by
  have hinj : ∀ y : Segment, x.map PyChar.scalar = y.map PyChar.scalar ↔ x = y := fun y =>
    List.map_inj_right fun _ _ => PyChar.scalar.inj
  exact and_congr (not_congr (hinj oneDot).symm) (not_congr (hinj twoDots).symm)

theorem all_isPlainChar_iff {x : Segment} :
    (x.map PyChar.scalar).all isPlainChar = true ↔ x.all isPlain = true := by
  rw [List.all_map]
  rfl

theorem contained_of_oneSegment {operation : ResourceOperation} {identifier : PyText}
    (h : operation.OneSegment identifier) : operation.Contained identifier := by
  obtain ⟨segment, bytes, ⟨text, hurl, hresolve⟩, hdecode, hencode⟩ := h
  obtain ⟨x, rfl, rfl⟩ := eq_map_scalar hencode
  obtain ⟨hshort, hplain⟩ := decode_length hdecode
  have hle : x.length ≤ segment.length := (PyText.length_le_encode x).trans hshort
  -- where the identifier stands for itself, it is the segment
  have hitself : operation.url (x.map .scalar) =
      .ok (PyText.ofString (String.ofList (operation.template x))) → x = segment ∧ Regular x := by
    intro hown
    have htext := PyText.ofString_injective (Except.ok.inj (hurl.symm.trans hown))
    rw [htext, String.toList_ofList] at hresolve
    exact eq_of_resolve_segment hresolve hle
  cases hquotes : operation.quotes with
  | true =>
    have hregular : Regular x := by
      by_contra hdots
      have hown := url_quoted hquotes (quote_scalars x)
      rw [encode_dots hdots, String.toList_ofList] at hown
      exact hdots (hitself hown).2
    obtain ⟨hone, htwo⟩ := regular_iff.mp hregular
    refine ⟨hone, htwo, ?_⟩
    rw [if_pos hquotes, List.all_map]
    exact List.all_eq_true.mpr fun _ _ => rfl
  | false =>
    obtain ⟨rfl, hregular⟩ := hitself (url_plain hquotes x)
    obtain ⟨hone, htwo⟩ := regular_iff.mp hregular
    refine ⟨hone, htwo, ?_⟩
    rw [if_neg (by rw [hquotes]; exact Bool.false_ne_true), all_isPlainChar_iff]
    exact hplain (PyText.length_le_encode x)

theorem oneSegment_of_contained {operation : ResourceOperation} {identifier : PyText}
    (h : operation.Contained identifier) : operation.OneSegment identifier := by
  obtain ⟨hone, htwo, hall⟩ := h
  cases hquotes : operation.quotes with
  | true =>
    rw [if_pos hquotes] at hall
    obtain ⟨bytes, hencode⟩ := PyText.encode_of_scalar hall
    obtain ⟨x, rfl, rfl⟩ := eq_map_scalar hencode
    have hdecode := decode_encode isPlain_of_alwaysSafe (x.flatMap String.utf8EncodeChar)
    have hregular : Regular (encode alwaysSafe (x.flatMap String.utf8EncodeChar)) := by
      by_contra hdots
      -- what is quoted as a dot segment is that dot segment
      have hback := decode_encode isPlain_of_alwaysSafe
        ((encode alwaysSafe (x.flatMap String.utf8EncodeChar)).flatMap String.utf8EncodeChar)
      rw [encode_dots hdots, hdecode] at hback
      have hsame := PyText.encode_scalars (encode alwaysSafe (x.flatMap String.utf8EncodeChar))
      rw [← Option.some.inj hback] at hsame
      rw [← List.map_injective_iff.mpr (fun _ _ => PyChar.scalar.inj)
        (PyText.encode_inj hencode hsame)] at hdots
      exact hdots (regular_iff.mpr ⟨hone, htwo⟩)
    refine ⟨_, _, ⟨_, url_quoted hquotes (quote_scalars x), ?_⟩, hdecode, hencode⟩
    rw [String.toList_ofList, String.toList_ofList]
    exact operation.resolve_template (clean_encode isPlain_of_alwaysSafe _) hregular
  | false =>
    rw [if_neg (by rw [hquotes]; exact Bool.false_ne_true)] at hall
    have hscalar : identifier.all PyText.isScalar = true := by
      refine List.all_eq_true.mpr fun c hc => ?_
      have hplain := List.all_eq_true.mp hall c hc
      cases c with
      | scalar c => rfl
      | surrogate n => cases hplain
    rw [← PyText.map_scalars hscalar] at hone htwo hall ⊢
    generalize identifier.scalars = x at *
    rw [all_isPlainChar_iff] at hall
    refine ⟨x, _, ⟨_, url_plain hquotes x, ?_⟩, decode_plain hall,
      PyText.encode_ascii fun c hc => ascii_of_isPlain (List.all_eq_true.mp hall c hc)⟩
    rw [String.toList_ofList]
    exact operation.resolve_template (clean_of_plain hall) (regular_iff.mpr ⟨hone, htwo⟩)

/-! ## No other resource -/

def all : List ResourceOperation :=
  [info, cancel, getProgress, queueStats, pauseQueue, resumeQueue, getWorkflow, cancelWorkflow,
    retryDeadLetterJob, deleteDeadLetterJob, unregisterCronJob, getSchema, deleteSchema,
    checkpoint, complete, loadReplayLog]

theorem mem_all (operation : ResourceOperation) : operation ∈ all := by
  cases operation <;> decide

/-- Operations with one method have segments of their own, or another number of them. -/
theorem apart : ∀ a ∈ all, ∀ b ∈ all, a.method = b.method →
    a.before.length + a.after.length = b.before.length + b.after.length →
    a.before.length = b.before.length ∧ (a.before = b.before → a.after = b.after → a = b) := by
  decide +kernel

theorem eq_of_segments {a b : ResourceOperation} (hmethod : a.method = b.method) {s t : Segment}
    (h : a.before ++ s :: a.after = b.before ++ t :: b.after) : a = b ∧ s = t := by
  have hlength := congrArg List.length h
  rw [List.length_append, List.length_append, List.length_cons, List.length_cons] at hlength
  obtain ⟨hbefore, hsame⟩ := apart a a.mem_all b b.mem_all hmethod (by omega)
  obtain ⟨hbefore, hrest⟩ := List.append_inj h hbefore
  obtain ⟨hsegment, hafter⟩ := List.cons.inj hrest
  exact ⟨hsame hbefore hafter, hsegment⟩

theorem fixed_apart : ∀ a ∈ all, ∀ r ∈ fixedRequests, r.1 = a.method →
    ∀ path ∈ resolve r.2.toList,
      path.length ≠ a.before.length + a.after.length + 1 ∨
        path.take a.before.length ≠ a.before := by
  decide +kernel

theorem addresses_unique {operation : ResourceOperation} {identifier : PyText}
    {path path' : List Segment} (h : operation.Addresses identifier path)
    (h' : operation.Addresses identifier path') : path = path' := by
  obtain ⟨text, hurl, hresolve⟩ := h
  obtain ⟨text', hurl', hresolve'⟩ := h'
  have htext := PyText.ofString_injective (Except.ok.inj (hurl.symm.trans hurl'))
  rw [htext, hresolve'] at hresolve
  exact (Option.some.inj hresolve).symm

/-- An identifier is one segment of its path exactly when it is contained in it. Such identifiers
have paths of their own, within one operation and across all requests. -/
theorem identifiers_contained_iff (operation : ResourceOperation) (identifier : PyText) :
    (OneSegment operation identifier ↔ Contained operation identifier) ∧
    (∀ other identifier' path, OneSegment operation identifier → OneSegment other identifier' →
      operation.method = other.method → operation.Addresses identifier path →
      other.Addresses identifier' path → operation = other ∧ identifier = identifier') ∧
    ∀ path, OneSegment operation identifier → operation.Addresses identifier path →
      ∀ r ∈ fixedRequests, r.1 = operation.method → resolve r.2.toList ≠ some path := by
  refine ⟨⟨contained_of_oneSegment, oneSegment_of_contained⟩, ?_, ?_⟩
  · rintro other identifier' path ⟨s, bytes, hpath, hdecode, hencode⟩
      ⟨s', bytes', hpath', hdecode', hencode'⟩ hmethod haddresses haddresses'
    have hsegments := (addresses_unique hpath haddresses).trans
      (addresses_unique hpath' haddresses').symm
    obtain ⟨rfl, rfl⟩ := eq_of_segments hmethod hsegments
    rw [hdecode] at hdecode'
    rw [← Option.some.inj hdecode'] at hencode'
    exact ⟨rfl, PyText.encode_inj hencode hencode'⟩
  · rintro path ⟨s, bytes, hpath, -, -⟩ haddresses r hr hmethod hresolve
    rw [← addresses_unique hpath haddresses] at hresolve
    rcases fixed_apart operation operation.mem_all r hr hmethod _ hresolve with hlength | hbefore
    · apply hlength
      rw [List.length_append, List.length_cons]
      omega
    · exact hbefore (List.take_left' rfl)

/-- An identifier of dots takes segments of the path away, and the name of a queue can hold more
than one segment. -/
theorem identifiers_escape :
    cancel.Addresses (PyText.ofString "..") (["ojs", "v1", ""].map String.toList) ∧
    (∃ path, pauseQueue.Addresses (PyText.ofString "mail/../bills") path ∧
      pauseQueue.Addresses (PyText.ofString "bills") path) ∧
    ¬ ∀ operation identifier, identifier ≠ [] → OneSegment operation identifier := by
  refine ⟨⟨"/ojs/v1/jobs/..", rfl, by decide⟩,
    ⟨["ojs", "v1", "queues", "bills", "pause"].map String.toList,
      ⟨"/ojs/v1/queues/mail/../bills/pause", rfl, by decide⟩,
      ⟨"/ojs/v1/queues/bills/pause", rfl, by decide⟩⟩, fun hall => ?_⟩
  have hcontained := contained_of_oneSegment (hall cancel (PyText.ofString "..") (by decide))
  exact hcontained.2.1 rfl

end ResourceOperation

end OpenJobSpec.Http
