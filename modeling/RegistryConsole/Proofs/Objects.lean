import RegistryConsole.Proofs.Operations
import RegistryConsole.Proofs.Url.Address
import RegistryConsole.Proofs.Url.Form

/-! # Objects by their keys

A client asks for an object below the console's own path, the lead of the registry and the
namespace. The key is put there as it is, and then read as a part of a URL: that leaves it as it is
exactly if it is a plain path. Only then does the request name this object and no other. -/

namespace RegistryConsole

namespace Url

/-! ## Segments and targets -/

/-- Whether a character is one that no URL gives a meaning of its own. -/
def isUnreserved (c : Char) : Bool :=
  c.isAlphanum || c == '-' || c == '.' || c == '_' || c == '~'

/-- Whether a text is a segment that stays as it is wherever it stands. -/
structure IsPlainSegment (cs : List Char) : Prop where
  ne_nil : cs ≠ []
  unreserved : ∀ c ∈ cs, isUnreserved c = true
  ne_point : cs ≠ ['.']
  ne_points : cs ≠ ['.', '.']

instance (cs : List Char) : Decidable (IsPlainSegment cs) :=
  decidable_of_iff (cs ≠ [] ∧ cs.all isUnreserved = true ∧ cs ≠ ['.'] ∧ cs ≠ ['.', '.'])
    ⟨fun ⟨hne, hplain, hpoint, hpoints⟩ => ⟨hne, List.all_eq_true.1 hplain, hpoint, hpoints⟩,
      fun h => ⟨h.ne_nil, List.all_eq_true.2 h.unreserved, h.ne_point, h.ne_points⟩⟩

theorem toNat_lt_of_isUnreserved {c : Char} (h : isUnreserved c = true) : c.toNat < 0x7F := by
  rw [isUnreserved, Bool.or_eq_true, Bool.or_eq_true, Bool.or_eq_true, Bool.or_eq_true] at h
  rcases h with (((h | h) | h) | h) | h
  · exact toNat_lt_of_isAlphanum h
  all_goals
    rw [eq_of_beq h]
    decide

/-- A character without a meaning of its own stays as it is, and separates nothing. -/
theorem isPlainChar_of_isUnreserved {c : Char} (h : isUnreserved c = true) :
    IsPlainChar c ∧ c ≠ '/' ∧ c ≠ '%' := by
  have hall : ∀ n < 0x7F, isUnreserved (Char.ofNat n) = true →
      IsPlainChar (Char.ofNat n) ∧ Char.ofNat n ≠ '/' ∧ Char.ofNat n ≠ '%' := by decide
  have hc := hall c.toNat (toNat_lt_of_isUnreserved h)
  rw [Char.ofNat_toNat] at hc
  exact hc h

/-- What stays as it is in a path is no blank, and does not end it. -/
theorem lt_of_isPlainChar {c : Char} (h : IsPlainChar c) : 0x20 < c.toNat ∧ isInPath c = true := by
  have hpath := h.1
  simp only [Escape.inPath, Escape.inQuery, Escape.isOutside, Bool.or_eq_false_iff,
    decide_eq_false_iff_not, beq_eq_false_iff_ne] at hpath
  obtain ⟨⟨⟨⟨⟨⟨⟨⟨⟨⟨hlow, -⟩, hspace⟩, -⟩, hmark⟩, -⟩, -⟩, hquestion⟩, -⟩, -⟩, -⟩ := hpath
  have hne : c.toNat ≠ 0x20 := fun heq => hspace (Char.toNat_inj.1 heq)
  refine ⟨by omega, ?_⟩
  rw [isInPath, Bool.and_eq_true, bne_iff_ne, bne_iff_ne]
  exact ⟨hquestion, hmark⟩

/-- A plain segment has no parts. -/
theorem IsPlainSegment.splitOn_eq {cs : List Char} (h : IsPlainSegment cs) :
    cs.splitOn '/' = [cs] := by
  rw [List.splitOn_eq_splitOnP]
  apply List.splitOnP_eq_singleton
  intro c hc
  simpa using (isPlainChar_of_isUnreserved (h.unreserved c hc)).2.1

/-- A plain segment is a plain path. -/
theorem IsPlainSegment.isPlainPath {cs : List Char} (h : IsPlainSegment cs) : IsPlainPath cs := by
  refine ⟨fun c hc => (isPlainChar_of_isUnreserved (h.unreserved c hc)).1, ?_⟩
  have hdots : plainDots cs = cs := by
    apply plainDots_eq_self
    intro hmem
    exact (isPlainChar_of_isUnreserved (h.unreserved _ hmem)).2.2 rfl
  intro segment hsegment
  rw [h.splitOn_eq, List.mem_singleton] at hsegment
  rw [hsegment, IsOrdinary, hdots]
  exact ⟨h.ne_point, h.ne_points⟩

/-- A path that is read below plain parts is plain. -/
theorem isPlainChar_of_path_eq {u : Url} {parts : List (List Char)} {cs : List Char}
    (hparts : ∀ part ∈ parts, ∀ c ∈ part, IsPlainChar c)
    (h : u.path = .segments (pushSegments parts (readSegments cs))) :
    ∀ c ∈ u.path.text, IsPlainChar c := by
  rw [h]
  exact fun c => isPlainChar_of_mem_pathText (isPlainChar_of_mem_pushSegments hparts
    fun part hpart c => isPlainChar_of_mem_readSegments hpart)

/-- A target is told apart into path and query at its first question mark. -/
theorem span_target {u : Url} (h : ∀ c ∈ u.path.text, IsPlainChar c) :
    u.target.takeWhile (· != '?') = u.path.text ∧
      u.target.dropWhile (· != '?') = u.queryText := by
  have hpath : ∀ c ∈ u.path.text, (c != '?') = true := by
    intro c hc
    rw [bne_iff_ne]
    rintro rfl
    exact absurd (h '?' hc).1 (by decide)
  have hquery : ∀ c ∈ u.queryText.head?, (c != '?') = false := by
    intro c hc
    rw [queryText] at hc
    split at hc
    · obtain rfl := Option.some.inj hc
      rfl
    · exact absurd hc (by simp)
  refine ⟨takeWhile_append_of_stop hpath hquery, ?_⟩
  rw [target, List.dropWhile_append_of_pos hpath]
  cases hq : u.queryText with
  | nil => rfl
  | cons c rest => exact List.dropWhile_cons_of_neg (by rw [hquery c (by rw [hq]; rfl)]; simp)

/-- Fields go into the query, one after the other. -/
theorem foldl_addField (fields : List (String × String)) (u : Url) :
    fields.foldl addField u = { u with query := fields.foldl Form.addPair u.query } := by
  induction fields generalizing u with
  | nil => rfl
  | cons field fields ih => exact ih (u.addField field)

/-- They leave the path alone. -/
theorem path_foldl_addField (fields : List (String × String)) (u : Url) :
    (fields.foldl addField u).path = u.path := by
  rw [foldl_addField]

end Url

namespace Client

variable {σ : Type}

/-! ## Operations on objects -/

/-- The operations on one object. -/
inductive ObjectCall where
  | get (version : Option String)
  | download (version : Option String)
  | upload (version : Option String) (body : Bytes) (mediaType : Option String)
  | delete

namespace ObjectCall

/-- The version that an operation is about, if it names one. -/
def version : ObjectCall → Option String
  | .get version => version
  | .download version => version
  | .upload version _ _ => version
  | .delete => none

/-- The task that an operation carries out. -/
def task (call : ObjectCall) (ns key : String) : Task :=
  match call with
  | .get version => .object ns key version
  | .download version => .object ns key version
  | .upload version body mediaType => .upload ns key version body mediaType
  | .delete => .delete ns key

/-- The method of an operation. -/
def method : ObjectCall → Method
  | .get _ | .download _ => .get
  | .upload .. => .put
  | .delete => .delete

/-- What an operation leaves of the network. -/
def run (call : ObjectCall) (c : Client) (net : Network σ) (ns key : String) (s : σ) : σ :=
  match call with
  | .get version => (c.getObject net ns key version s).2
  | .download version => (c.downloadObject net ns key version s).2
  | .upload version body mediaType => (c.uploadObject net ns key version body mediaType s).2
  | .delete => (c.deleteObject net ns key s).2

end ObjectCall

theorem ObjectCall.path_task (call : ObjectCall) (ns key : String) :
    (call.task ns key).path = objectPath ns key := by
  cases call <;> rfl

theorem ObjectCall.method_task (call : ObjectCall) (ns key : String) :
    (call.task ns key).method = call.method := by
  cases call <;> rfl

/-- No operation on an object asks for a tunnel. -/
theorem ObjectCall.method_ne_connect (call : ObjectCall) : call.method ≠ .connect := by
  cases call with
  | upload => exact (by decide : Method.put ≠ Method.connect)
  | delete => exact (by decide : Method.delete ≠ Method.connect)
  | _ => exact (by decide : Method.get ≠ Method.connect)

theorem ObjectCall.fields_task (call : ObjectCall) (ns key : String) :
    (call.task ns key).fields = versionField call.version := by
  cases call <;> rfl

/-- Every operation on an object carries out its task, and nothing else. -/
theorem ObjectCall.run_eq (call : ObjectCall) (c : Client) (net : Network σ) (ns key : String)
    (s : σ) : call.run c net ns key s = (c.perform net (call.task ns key) s).2 := by
  -- what is made of the answer has no say in what is sent
  have hstate : ∀ op : Operation, (op.run c net s).2 = (c.perform net op.task s).2 :=
    fun op => (Operation.passesOn_run op c net s).state
  cases call with
  | get version =>
    exact (Operation.failure_state _).symm.trans (hstate (.getObject ns key version))
  | download version =>
    exact (Operation.failure_state _).symm.trans (hstate (.downloadObject ns key version))
  | upload version body mediaType =>
    exact (Operation.failure_state _).symm.trans
      (hstate (.uploadObject ns key version body mediaType))
  | delete => exact (Operation.failure_state _).symm.trans (hstate (.deleteObject ns key))

/-- The first request of a task asks for the target of the task's URL. -/
theorem exists_first_target {c : Client} {net : Network σ} {task : Task}
    (hmethod : task.method ≠ .connect) {s : σ} {first : WireRequest}
    (h : first ∈ (c.perform net.recorded task ([], s)).2.1.head?) :
    ∃ u, c.urlWith task.path task.fields = .ok u ∧ first.target = u.target := by
  cases hready : c.ready? task with
  | error f =>
    rw [perform_eq, hready] at h
    exact absurd h (by simp)
  | ok call =>
    rw [head?_perform hready] at h
    obtain rfl := Option.some.inj h
    obtain ⟨hasked, -, u, hu, hurl⟩ := ready?_ok hready
    refine ⟨u, hu, ?_⟩
    show call.target = u.target
    rw [Call.target_of_ne (hasked ▸ hmethod)]
    rcases hurl with hurl | hurl
    · rw [hurl]
    · rw [hurl]
      rfl

/-- A task is sent if its URL is one of the web that has a host, names no user and is not too long,
and what it sends has a media type. -/
theorem exists_first_sent {c : Client} {task : Task} {u : Url} (hmethod : task.method ≠ .connect)
    (hu : c.urlWith task.path task.fields = .ok u) (huser : u.user = [] ∧ u.password = none)
    (hhost : u.hasHost = true) (hhttp : u.isHttp = true)
    (htext : (RequestTarget.ofBytes? (Utf8.ofString u.text)).isOk)
    (hcontent : ∀ content ∈ task.content, HeaderField.isValue (Utf8.ofString content.1) = true)
    (net : Network σ) (s : σ) :
    ∃ first, (c.perform net.recorded task ([], s)).2.1.head? = some first ∧
      first.target = u.target := by
  obtain ⟨hcallable, hsent⟩ := Url.isCallable_of_user_eq huser hhost hhttp htext
  obtain ⟨call, hready, hurl⟩ := exists_ready? task hu hcallable hcontent
  refine ⟨call.wire, head?_perform hready net s, ?_⟩
  rw [← hsent, ← hurl]
  exact Call.target_of_ne ((ready?_ok hready).1 ▸ hmethod)

/-- So is an operation, if its object has such a URL. -/
theorem ObjectCall.exists_first_sent {call : ObjectCall} {c : Client} {ns key : String} {u : Url}
    (hu : c.urlWith (objectPath ns key) (versionField call.version) = .ok u)
    (huser : u.user = [] ∧ u.password = none) (hhost : u.hasHost = true) (hhttp : u.isHttp = true)
    (htext : (RequestTarget.ofBytes? (Utf8.ofString u.text)).isOk)
    (hcontent : ∀ content ∈ (call.task ns key).content,
      HeaderField.isValue (Utf8.ofString content.1) = true)
    (net : Network σ) (s : σ) :
    ∃ first, (call.run c net.recorded ns key ([], s)).1.head? = some first ∧
      first.target = u.target := by
  rw [ObjectCall.run_eq]
  apply Client.exists_first_sent ?_ ?_ huser hhost hhttp htext hcontent
  · rw [call.method_task]
    exact call.method_ne_connect
  · rw [call.path_task, call.fields_task, hu]

/-! ## The URL of an object -/

/-- The path of the console's own address, up to the slash that any path is put after. -/
def consolePath (address : String) : List Char :=
  match Url.ofText (RegistrySettings.trimSlashes address ++ "/") with
  | .ok root => root.path.text.dropLast
  | .error _ => []

/-- What a version adds to the path before it. -/
def versionText : Option String → List Char
  | none => []
  | some v => '?' :: Form.encodePair ("version", v)

/-- Whether a target is that of an object: its path is the key as it is, below the console's own
path, the registry and the namespace, and its query is the version, if there is one. -/
structure NamesObject (address ns key : String) (version : Option String) (target : List Char) :
    Prop where
  path : target.takeWhile (· != '?') =
    consolePath address ++ (Route.registryLead ++ "/" ++ ns ++ "/" ++ key).toList
  query : target.dropWhile (· != '?') = versionText version

/-- What every key is put after, below the console's own path. -/
def objectLead (ns : String) : List Char :=
  "api/object-registry".toList ++ '/' :: ns.toList

variable {address ns : String} {server : Url} {after : List Char}

/-- The lead is a plain path. -/
theorem isPlainPath_objectLead (hns : Url.IsPlainSegment ns.toList) :
    Url.IsPlainPath (objectLead ns) :=
  Url.isPlainPath_append_slash.2 ⟨by decide, hns.isPlainPath⟩

/-- The text of an object's URL is the lead and the key, below the console's address. -/
theorem url_objectPath (hns : Url.IsPlainSegment ns.toList) (address key : String) :
    (Client.of address).url (objectPath ns key) =
      Url.ofText (RegistrySettings.trimSlashes address ++ "/" ++
        String.ofList (objectLead ns ++ '/' :: key.toList)) := by
  have hkept : trimLead (objectPath ns key) = objectPath ns key := by
    -- the namespace is there, and does not start with a slash
    have hne := hns.ne_nil
    have hplain := hns.unreserved
    apply String.toList_inj.1
    rw [trimLead, String.toList_ofList, objectPath, String.toList_append, String.toList_append]
    cases hlist : ns.toList with
    | nil => exact absurd hlist hne
    | cons c rest =>
      rw [hlist] at hplain
      have hslash := (Url.isPlainChar_of_isUnreserved (hplain c List.mem_cons_self)).2.1
      exact List.dropWhile_cons_of_neg (by simpa using hslash)
  have hlead : Route.registryLead = "/" ++ "api/object-registry" := by decide
  have htext : ∀ start lead : String, start ++ ("/" ++ lead) ++ "/" ++ objectPath ns key =
      start ++ "/" ++ String.ofList (lead.toList ++ '/' :: ns.toList ++ '/' :: key.toList) := by
    intro start lead
    apply String.toList_inj.1
    simp [objectPath]
  rw [url, hkept, Client.of, hlead]
  exact congrArg Url.ofText (htext _ _)

/-- The URL of an object: its path goes on from the console's own path, and what does not belong to
the path comes after it. -/
theorem exists_url_eq
    (hserves : Url.ServesBelow (RegistrySettings.trimSlashes address) server after)
    (hafter : ∀ c ∈ after, Url.isInPath c = true) (hns : Url.IsPlainSegment ns.toList) :
    ∃ parts : List (List Char), (∀ part ∈ parts, ∀ c ∈ part, Url.IsPlainChar c) ∧
      consolePath address = Url.pathText parts ∧
      ∀ (key : String) (path tail : List Char), Url.keptEnd key.toList = path ++ tail →
        (∀ c ∈ path, Url.isInPath c = true) → (∀ c ∈ tail.head?, Url.isInPath c = false) →
        (Client.of address).url (objectPath ns key) = .ok ({ server with
          path := .segments (Url.pushSegments parts
            (Url.readSegments (objectLead ns ++ '/' :: path))) }.withEnd tail) := by
  obtain ⟨parts, hparts, hread⟩ := Url.exists_withPath_eq hserves.special hserves.ends hafter
  refine ⟨parts, hparts, ?_, ?_⟩
  · have hroot := hserves.read ""
    rw [String.append_empty] at hroot
    rw [consolePath, hroot]
    show (server.withPath (after ++ '/' :: ([] ++ []))).path.text.dropLast = _
    rw [hread [] [] (by simp) (by simp)]
    show (Url.pathText (Url.pushSegments parts [[]])).dropLast = Url.pathText parts
    rw [Url.pathText_pushSegments (by decide), Url.pathText_cons, Url.pathText_nil]
    exact List.dropLast_concat
  · intro key path tail hkept hpath htail
    have hlead : ∀ c ∈ objectLead ns, 0x20 < c.toNat ∧ Url.isInPath c = true :=
      fun c hc => Url.lt_of_isPlainChar ((isPlainPath_objectLead hns).1 c hc)
    have hlonger : ∀ c ∈ objectLead ns ++ '/' :: path, Url.isInPath c = true := by
      intro c hc
      rcases List.mem_append.1 hc with hc | hc
      · exact (hlead c hc).2
      · rcases List.mem_cons.1 hc with rfl | hc
        · decide
        · exact hpath c hc
    have hjoin : objectLead ns ++ '/' :: (path ++ tail) = objectLead ns ++ '/' :: path ++ tail := by
      simp
    rw [url_objectPath hns, hserves.read, String.toList_ofList,
      Url.keptEnd_append_slash fun c hc => (hlead c hc).1, hkept, hjoin,
      hread _ tail hlonger htail]

/-! ## What is asked for -/

/-- The path of an object as it is named is one below the console's own path. -/
theorem toList_objectPath (ns key : String) :
    (Route.registryLead ++ "/" ++ ns ++ "/" ++ key).toList =
      '/' :: (objectLead ns ++ '/' :: key.toList) := by
  have hlead : Route.registryLead = "/" ++ "api/object-registry" := by decide
  have htext : ∀ lead : String, ("/" ++ lead ++ "/" ++ ns ++ "/" ++ key).toList =
      '/' :: (lead.toList ++ '/' :: ns.toList ++ '/' :: key.toList) := by
    intro lead
    simp
  rw [hlead]
  exact htext _

/-- A target names one object, in one version. -/
theorem NamesObject.unique {address ns ns' key key' : String} {version version' : Option String}
    {target : List Char} (hother : NamesObject address ns' key' version' target)
    (hns' : Url.IsPlainSegment ns'.toList) (hns : Url.IsPlainSegment ns.toList)
    (hnamed : NamesObject address ns key version target) :
    ns' = ns ∧ key' = key ∧ versionText version' = versionText version := by
  have hslash : ∀ {cs : List Char}, Url.IsPlainSegment cs → '/' ∉ cs := fun hcs hmem =>
    (Url.isPlainChar_of_isUnreserved (hcs.unreserved _ hmem)).2.1 rfl
  have hcancel : ∀ lead : List Char,
      lead ++ '/' :: ns'.toList ++ '/' :: key'.toList =
        lead ++ '/' :: ns.toList ++ '/' :: key.toList →
      ns'.toList = ns.toList ∧ key'.toList = key.toList := by
    intro lead h
    rw [List.append_assoc, List.append_assoc, List.append_cancel_left_eq, List.cons_append,
      List.cons_append, List.cons.injEq] at h
    exact (append_cons_eq_iff_of_not_mem (hslash hns') (hslash hns)).1 h.2
  have hpath := hother.path.symm.trans hnamed.path
  rw [List.append_cancel_left_eq, toList_objectPath, toList_objectPath, List.cons.injEq] at hpath
  obtain ⟨hsegment, hkey⟩ := hcancel "api/object-registry".toList hpath.2
  exact ⟨String.toList_inj.1 hsegment, String.toList_inj.1 hkey,
    hother.query.symm.trans hnamed.query⟩

/-- A key of plain characters is all path. -/
theorem eq_of_keptEnd {key path tail : List Char} (hkey : ∀ c ∈ key, Url.IsPlainChar c)
    (hkept : Url.keptEnd key = path ++ tail) (htail : ∀ c ∈ tail.head?, Url.isInPath c = false) :
    path = key ∧ tail = [] := by
  rw [Url.keptEnd_eq_self fun c hc => (Url.lt_of_isPlainChar (hkey c hc)).1] at hkept
  have hnil : tail = [] := by
    cases tail with
    | nil => rfl
    | cons c tail =>
      have hmem : c ∈ key := by
        rw [hkept]
        exact List.mem_append_right _ List.mem_cons_self
      have hin := (Url.lt_of_isPlainChar (hkey c hmem)).2
      rw [htail c rfl] at hin
      exact absurd hin (by simp)
  rw [hnil, List.append_nil] at hkept
  exact ⟨hkept.symm, hnil⟩

/-- The target of an object's URL is that of the object exactly if the key is plain. -/
theorem namesObject_iff
    (hserves : Url.ServesBelow (RegistrySettings.trimSlashes address) server after)
    (hafter : ∀ c ∈ after, Url.isInPath c = true) (hns : Url.IsPlainSegment ns.toList)
    {key : String} {version : Option String} {u : Url}
    (hu : (Client.of address).urlWith (objectPath ns key) (versionField version) = .ok u) :
    NamesObject address ns key version u.target ↔ Url.IsPlainPath key.toList := by
  obtain ⟨parts, hparts, hconsole, hurl⟩ := exists_url_eq hserves hafter hns
  obtain ⟨path, tail, hkept, hpath, htail⟩ := exists_span Url.isInPath (Url.keptEnd key.toList)
  rw [urlWith, hurl key path tail hkept hpath htail] at hu
  have hu := Except.ok.inj hu
  have hupath : u.path = .segments (Url.pushSegments parts
      (Url.readSegments (objectLead ns ++ '/' :: path))) := by
    rw [← hu, Url.path_foldl_addField, Url.path_withEnd]
  have hpathText := congrArg UrlPath.text hupath
  rw [UrlPath.text] at hpathText
  have hchars := Url.isPlainChar_of_path_eq hparts hupath
  obtain ⟨htake, hdrop⟩ := Url.span_target hchars
  have hiff := Url.pathText_pushSegments_eq_iff hparts (objectLead ns ++ '/' :: key.toList)
  rw [Url.isPlainPath_append_slash, ← hconsole] at hiff
  constructor
  · rintro ⟨hnamed, -⟩
    rw [htake, toList_objectPath] at hnamed
    -- the key comes out as it is, so nothing of it was escaped or cut off
    have hkey : ∀ c ∈ key.toList, Url.IsPlainChar c := by
      intro c hc
      apply hchars
      rw [hnamed]
      exact List.mem_append_right _ (List.mem_cons_of_mem _ (List.mem_append_right _
        (List.mem_cons_of_mem _ hc)))
    obtain ⟨rfl, -⟩ := eq_of_keptEnd hkey hkept htail
    rw [hpathText] at hnamed
    exact (hiff.1 hnamed).2
  · intro hplain
    obtain ⟨rfl, rfl⟩ := eq_of_keptEnd hplain.1 hkept htail
    constructor
    · rw [htake, hpathText, toList_objectPath]
      exact hiff.2 ⟨isPlainPath_objectLead hns, hplain⟩
    · rw [hdrop, ← hu]
      cases version with
      | none =>
        show Url.queryText { server with path := _ } = []
        rw [Url.queryText, hserves.query]
      | some v =>
        show Url.queryText { server with path := _, query := Form.addPair server.query _ } = _
        rw [hserves.query]
        rfl

/-- If more than a path comes before the keys, there is no key whose object is named. -/
theorem not_namesObject
    (hserves : Url.ServesBelow (RegistrySettings.trimSlashes address) server after)
    (hafter : ¬∀ c ∈ after, Url.isInPath c = true) (hns : Url.IsPlainSegment ns.toList)
    {key : String} {version : Option String} {u : Url}
    (hu : (Client.of address).urlWith (objectPath ns key) (versionField version) = .ok u) :
    ¬NamesObject address ns key version u.target := by
  obtain ⟨path, tail, rfl, hpath, htail⟩ := exists_span Url.isInPath after
  cases tail with
  | nil => exact absurd (fun c hc => hpath c (by simpa using hc)) hafter
  | cons x tail =>
    -- the key comes after the path, so the path is that of the address itself
    have hsame : ∀ more, (server.withPath (path ++ x :: tail ++ '/' :: more)).path =
        .segments (Url.pushSegments [] (Url.readSegments (Url.dropSlash true path))) := by
      intro more
      rw [List.append_assoc]
      exact Url.path_withPath_append_cons hserves.special hpath (htail x rfl) _
    rw [urlWith, url_objectPath hns, hserves.read] at hu
    have hupath := (congrArg Url.path (Except.ok.inj hu)).symm.trans
      ((Url.path_foldl_addField _ _).trans (hsame _))
    have hconsole : consolePath address = u.path.text.dropLast := by
      have hroot := hserves.read ""
      rw [String.append_empty] at hroot
      rw [consolePath, hroot, hupath, ← hsame]
    rintro ⟨hnamed, -⟩
    rw [(Url.span_target (Url.isPlainChar_of_path_eq (by simp) hupath)).1, hconsole,
      toList_objectPath] at hnamed
    have hlength := congrArg List.length hnamed
    rw [List.length_append, List.length_dropLast, List.length_cons, List.length_append,
      List.length_cons] at hlength
    omega

/-- The first request of an operation names its object exactly if the console's address ends with
its path and the key is plain: nothing of it is escaped, no backslash stands for a slash, no segment
is a point or two, and nothing starts a query. Then it names no other object. -/
theorem first_target_names_iff {address : String} {base : Url}
    (hbase : Url.ofText address = .ok base) (hhttp : base.isHttp = true) {ns : String}
    (hns : Url.IsPlainSegment ns.toList) (call : ObjectCall) (net : Network σ) (key : String)
    (s : σ) :
    ∀ first ∈ (call.run (Client.of address) net.recorded ns key ([], s)).1.head?,
      (NamesObject address ns key call.version first.target ↔
        (base.query = none ∧ base.fragment = none) ∧ Url.IsPlainPath key.toList) ∧
      (NamesObject address ns key call.version first.target → ∀ ns' key' version,
        Url.IsPlainSegment ns'.toList → NamesObject address ns' key' version first.target →
          ns' = ns ∧ key' = key ∧ versionText version = versionText call.version) := by
  intro first hfirst
  rw [ObjectCall.run_eq] at hfirst
  obtain ⟨u, hu, htarget⟩ :=
    exists_first_target (call.method_task ns key ▸ call.method_ne_connect) hfirst
  rw [call.path_task, call.fields_task] at hu
  rw [htarget]
  refine ⟨?_, fun hnamed ns' key' version hns' hother => hother.unique hns' hns hnamed⟩
  rcases Url.exists_servesBelow hbase hhttp with ⟨f, hf⟩ |
    ⟨server, after, own, hserves, rfl, hafter, hown⟩
  · -- without a URL nothing is sent
    rw [urlWith, url_objectPath hns, hf] at hu
    exact absurd hu (by simp)
  · rw [Url.withPath_ends_iff hserves.special hserves.query hserves.fragment]
    by_cases hpath : ∀ c ∈ after, Url.isInPath c = true
    · rw [namesObject_iff hserves hpath hns hu, iff_and_self]
      intro _ c hc
      rcases hown c hc with hc | rfl
      · exact hpath c hc
      · decide
    · refine iff_of_false (not_namesObject hserves hpath hns hu) ?_
      rintro ⟨hends, -⟩
      exact hpath fun c hc => (hafter c hc).elim (hends c) Url.isInPath_of_blank

/-- A file of a folder, in a version whose name has a blank, is asked for by its name. -/
theorem first_target_names_iff_folder :
    let net := Backend.network fun _ b => some b
    let backend : Backend := ⟨fun _ => true, [], ⟨.ok, [], .empty⟩, []⟩
    let address := "http://ui.example/base/"
    let call := ObjectCall.upload (some "v 1") [1, 2] none
    let sent := (call.run (Client.of address) net.recorded "ns" "dir/report.txt" ([], backend)).1
    ∃ first, sent.head? = some first ∧
      first.target = "/base/api/object-registry/ns/dir/report.txt?version=v+1".toList ∧
      NamesObject address "ns" "dir/report.txt" (some "v 1") first.target := by
  intro net backend address call sent
  have hbase : Url.ofText "http://ui.example/base/" = .ok ⟨"http".toList, [], none,
      some "ui.example".toList, none, .segments ["base".toList, []], none, none⟩ := by rfl
  have hns : Url.IsPlainSegment "ns".toList :=
    ⟨by decide, List.all_eq_true.1 (by decide), by decide, by decide⟩
  have htext : (Client.of address).base ++ "/" ++ trimLead (objectPath "ns" "dir/report.txt") =
      "http://ui.example/base/api/object-registry/ns/dir/report.txt" := by decide
  obtain ⟨first, hfirst, htarget⟩ := call.exists_first_sent (c := Client.of address)
    (u := ⟨"http".toList, [], none, some "ui.example".toList, none, .segments ["base".toList,
      "api".toList, "object-registry".toList, "ns".toList, "dir".toList, "report.txt".toList],
      some "version=v+1".toList, none⟩) (by rw [urlWith, url, htext]; rfl)
    (by decide) (by decide) (by decide) (by decide) (by decide) net backend
  refine ⟨first, hfirst, htarget, ?_⟩
  exact (first_target_names_iff hbase (by decide) hns call net "dir/report.txt" backend
    first hfirst).1.2 ⟨⟨rfl, rfl⟩, by decide⟩

/-- A key that goes up has an object of another namespace deleted. -/
theorem first_target_of_points :
    let net := Backend.network fun _ b => some b
    let backend : Backend := ⟨fun _ => true, [], ⟨.ok, [], .empty⟩, []⟩
    let address := "http://ui.example"
    let sent := (ObjectCall.delete.run (Client.of address) net.recorded "ns" "../other/report.txt"
      ([], backend)).1
    ∃ first, sent.head? = some first ∧
      ¬ NamesObject address "ns" "../other/report.txt" none first.target ∧
      NamesObject address "other" "report.txt" none first.target := by
  intro net backend address sent
  have htext : (Client.of address).base ++ "/" ++ trimLead (objectPath "ns" "../other/report.txt") =
      "http://ui.example/api/object-registry/ns/../other/report.txt" := by decide
  have hconsole : consolePath address = [] := by
    have haddress : RegistrySettings.trimSlashes address ++ "/" = "http://ui.example/" := by decide
    rw [consolePath, haddress]
    rfl
  obtain ⟨first, hfirst, htarget⟩ := ObjectCall.delete.exists_first_sent
    (c := Client.of address) (u := ⟨"http".toList, [], none, some "ui.example".toList, none,
      .segments ["api".toList, "object-registry".toList, "other".toList, "report.txt".toList],
      none, none⟩) (by rw [urlWith, url, htext]; rfl)
    (by decide) (by decide) (by decide) (by decide) (by decide) net backend
  refine ⟨first, hfirst, ?_, ?_, ?_⟩
  · rintro ⟨hpath, -⟩
    rw [htarget, hconsole] at hpath
    exact absurd hpath (by decide)
  · rw [htarget, hconsole]
    decide
  · rw [htarget]
    decide

end Client

end RegistryConsole
