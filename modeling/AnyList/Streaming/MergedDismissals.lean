import AnyList.Library.Partial
import AnyList.Streaming.NextUpSettings

namespace AnyList.Streaming.NextUpSettings

open AnyList.Library AnyList.Library.Octets AnyList.Library.Json AnyList.Library.PyText
open AnyList.Library.Partial (bind_eq_ok)

section keys

variable {title : Text} {episode : ℤ × ℤ}

/-- A title that is the key of itself has no blanks around it and no bar. -/
theorem plain_title (h : contentKey title = title) :
    strip title = title ∧ ∀ c ∈ title, c ≠ bar := by
  have htake : (contentKey title).Sublist (strip title) := List.takeWhile_sublist _
  rw [h] at htake
  refine ⟨(strip_sublist title).antisymm htake, fun c hc ↦ ?_⟩
  rw [← h] at hc
  have hbar := List.mem_takeWhile_imp (p := fun c ↦ decide (c ≠ bar)) (l := strip title) hc
  exact of_decide_eq_true hbar

theorem head_of_plain (h : contentKey title = title) : ∀ c ∈ title.head?, isSpace c = false := by
  intro c hc
  have hstrip : (strip title).Sublist (title.dropWhile isSpace) :=
    (List.rdropWhile_prefix _ _).sublist
  rw [(plain_title h).1] at hstrip
  obtain ⟨t, rfl⟩ := List.head?_eq_some_iff.mp hc
  by_contra hspace
  rw [Bool.not_eq_false] at hspace
  rw [List.dropWhile_cons_of_pos hspace] at hstrip
  have hlength := hstrip.length_le
  have hdrop := (List.dropWhile_sublist isSpace (l := t)).length_le
  rw [List.length_cons] at hlength
  omega

theorem contentKey_seedKey (h : contentKey title = title) :
    contentKey (seedKey title episode) = title := by
  have hlast : ∀ c ∈ (seedKey title episode).getLast?, isSpace c = false := by
    intro c hc
    rw [seedKey, List.getLast?_append, List.getLast?_cons, List.getLast?_append,
      List.getLast?_cons, List.getLast?_eq_some_getLast (decimal_ne_nil episode.2)] at hc
    refine isSpace_decimal (n := episode.2) ?_
    rw [Option.mem_def] at hc
    obtain rfl : (decimal episode.2).getLast (decimal_ne_nil episode.2) = c := by simpa using hc
    exact List.getLast_mem _
  have hhead : ∀ c ∈ (seedKey title episode).head?, isSpace c = false := by
    intro c hc
    rw [seedKey] at hc
    cases title with
    | nil =>
      obtain rfl : bar = c := Option.some.inj hc
      rfl
    | cons first rest => exact head_of_plain h c hc
  have hall : ∀ c ∈ title, decide (c ≠ bar) = true := fun c hc ↦
    decide_eq_true ((plain_title h).2 c hc)
  rw [contentKey, strip_eq_self hhead hlast, seedKey, List.takeWhile_append_of_pos hall,
    List.takeWhile_cons_of_neg (by simp), List.append_nil]

end keys

section sets

theorem stringSet_sortedStrings (keys : Finset Text) :
    stringSet (some (sortedStrings keys)) = .ok keys := by
  have hall (texts : List Text) : (texts.map Value.str).mapM asText = some texts := by
    induction texts with
    | nil => rfl
    | cons t texts ih =>
      rw [List.map_cons, List.mapM_cons, ih]
      rfl
  simp only [stringSet, sortedStrings, hall]
  exact congrArg Except.ok (Finset.sort_toFinset keys _)

variable {request : Request} {old : Finset Text} {key : Text}

theorem TVSettings.mem_keys : key ∈ TVSettings.keys request old ↔
    key ∈ old ∧ contentKey key ∉ request.hidden ∧ contentKey key ∉ request.visible ∨
      key ∈ request.hidden ∧ key ∉ request.visible := by
  simp only [TVSettings.keys, Finset.mem_union, Finset.mem_filter, Finset.mem_sdiff, not_or]

theorem MobileSettings.mem_keys : key ∈ MobileSettings.keys request old ↔
    key ∈ old ∧ contentKey key ∉ request.visible ∨ ∃ title, (title ∈ request.hidden ∧
      title ∉ request.visible) ∧ ∃ episode ∈ (request.seeds.get title).getD ∅,
        seedKey title episode = key := by
  simp only [MobileSettings.keys, Finset.mem_union, Finset.mem_filter, Finset.mem_biUnion,
    Finset.mem_sdiff, Finset.mem_image]

theorem TVSettings.keys_keys :
    TVSettings.keys request (TVSettings.keys request old) = TVSettings.keys request old := by
  ext key
  rw [TVSettings.mem_keys, TVSettings.mem_keys]
  tauto

theorem MobileSettings.keys_keys :
    MobileSettings.keys request (MobileSettings.keys request old) =
      MobileSettings.keys request old := by
  ext key
  rw [MobileSettings.mem_keys, MobileSettings.mem_keys]
  refine ⟨?_, ?_⟩
  · rintro (⟨hkey, -⟩ | hseed)
    · exact hkey
    · exact .inr hseed
  · rintro (⟨hkey, hvisible⟩ | hseed)
    · exact .inl ⟨.inl ⟨hkey, hvisible⟩, hvisible⟩
    · exact .inr hseed

end sets

section formats

/-- A format of the settings: where its dismissals lie, and what is stored beside them. -/
structure Adapter where
  path : List Text
  name : Text
  entry : Value → Except SettingsError (List (Text × Value))
  dismissals : Value → Except SettingsError (Finset Text)
  /-- The keys by which the format dismisses a title. -/
  keysOf : Request → Text → Finset Text
  /-- A hidden title loses the keys that it had. -/
  normalizes : Bool
  keys : Request → Finset Text → Finset Text
  write : Value → Finset Text → Value
  merge : Request → Objects → Except SettingsError ((Ref × Finset Text) × Objects)

def tvAdapter : Adapter where
  path := TVSettings.path
  name := text "value"
  entry := TVSettings.encoded
  dismissals := TVSettings.dismissals
  keysOf _ title := {title}
  normalizes := true
  keys := TVSettings.keys
  write := TVSettings.write
  merge := TVSettings.merge

def mobileAdapter (json : JsonModule) : Adapter where
  path := MobileSettings.path
  name := text "dismissedNextUpKeys"
  entry := MobileSettings.payload json
  dismissals := MobileSettings.dismissals json
  keysOf request title := ((request.seeds.get title).getD ∅).image (seedKey title)
  normalizes := false
  keys := MobileSettings.keys
  write := MobileSettings.write json
  merge := MobileSettings.merge json

def settingsAdapters (json : JsonModule) : List Adapter := [tvAdapter, mobileAdapter json]

/-- What a merge into a blob that dismisses `old` keeps to, where it returns `ref` and `keys`. -/
structure TouchesOnly (adapter : Adapter) (request : Request) (old : Finset Text)
    (before after : Objects) (ref : Ref) (keys : Finset Text) : Prop where
  decodes : adapter.dismissals (after.get ref) = .ok keys
  exact : ∀ key, key ∈ keys ↔
    (key ∈ old ∧ contentKey key ∉ request.visible ∧
      (adapter.normalizes = true → contentKey key ∉ request.hidden)) ∨
    ∃ title ∈ request.hidden, title ∉ request.visible ∧ key ∈ adapter.keysOf request title
  keeps : ∀ key ∈ old, contentKey key ∉ request.hidden → contentKey key ∉ request.visible →
    key ∈ keys
  shows : ∀ key ∈ keys, contentKey key ∉ request.visible
  settings : ∀ path, Apart adapter.path path →
    (after.get ref).lookup path = before.original.lookup path
  beside : ∃ stored stored', adapter.entry before.original = .ok stored ∧
    adapter.entry (after.get ref) = .ok stored' ∧
      ∀ name ≠ adapter.name, field name stored' = field name stored
  original : after.original = before.original
  again : ∀ copy, adapter.merge request ⟨after.get ref, copy⟩ =
    .ok ((.original, keys), ⟨after.get ref, copy⟩)

theorem features_eq {blob : Value} {stored : List (Text × Value)}
    (h : features blob = .ok stored) : field (text "features") blob.fields = some (.obj stored) := by
  unfold features at h
  split at h
  · next heq => rw [heq, Except.ok.inj h]
  · cases h

theorem features_put {blob v : Value} {stored : List (Text × Value)} {name : Text}
    {path : List Text} (h : features blob = .ok stored) :
    features (v.put (text "features" :: name :: path) blob) =
      .ok (setField name (v.put path ((field name stored).getD (.obj []))) stored) := by
  rw [Value.put, features, Value.fields, field_setField_self, features_eq h]
  rfl

namespace TVSettings

variable {blob : Value} {stored : List (Text × Value)} {keys : Finset Text}

theorem tracking_put {v : Value} (h : tracking blob = .ok stored) :
    tracking (v.put path blob) = .ok (setField (text "dismissed_next_up_keys") v stored) := by
  obtain ⟨fields, hfeatures, hfields⟩ := bind_eq_ok.mp h
  have hstored : ((field (text "trakt_settings") fields).getD (.obj [])).fields = stored := by
    split at hfields
    · next heq =>
      rw [heq]
      exact Except.ok.inj hfields
    · next heq =>
      rw [heq]
      exact Except.ok.inj hfields
    · cases hfields
  rw [tracking, path, features_put hfeatures]
  dsimp only [bind, Except.bind]
  rw [field_setField_self, Value.put, hstored]
  rfl

theorem lookup_path (h : tracking blob = .ok stored) :
    blob.lookup path = field (text "dismissed_next_up_keys") stored := by
  obtain ⟨fields, hfeatures, hfields⟩ := bind_eq_ok.mp h
  rw [path, Value.lookup, features_eq hfeatures, Option.bind_some, Value.lookup, Value.fields]
  split at hfields
  · next heq =>
    rw [heq, ← Except.ok.inj hfields]
    rfl
  · next heq =>
    rw [heq, Option.bind_some, Value.lookup, Value.fields, Except.ok.inj hfields]
    cases field (text "dismissed_next_up_keys") stored <;> rfl
  · cases hfields

/-- The entry that is written is read back, and differs in its keys alone. -/
theorem encoded_write (h : encoded blob = .ok stored) :
    ∃ stored', encoded (write blob keys) = .ok stored' ∧
      field (text "value") stored' = some (sortedStrings keys) ∧
      ∀ name ≠ text "value", field name stored' = field name stored := by
  obtain ⟨tracked, htracking, hentry⟩ := bind_eq_ok.mp h
  have htype : text "type" ≠ text "value" := by decide
  have hread (entry : List (Text × Value)) (hentry : field (text "type") entry =
      field (text "type") stored) (hstored : (field (text "type") stored).bind asText =
        some (text "string_set")) : encoded ((Value.obj (setField (text "value")
          (sortedStrings keys) entry)).put path blob) =
            .ok (setField (text "value") (sortedStrings keys) entry) := by
    rw [encoded, tracking_put htracking]
    dsimp only [bind, Except.bind]
    rw [field_setField_self]
    dsimp only
    rw [field_setField_of_ne htype, hentry, if_pos hstored]
  rw [write, lookup_path htracking]
  split at hentry
  · next heq =>
    rw [heq]
    obtain rfl := Except.ok.inj hentry
    refine ⟨_, hread _ rfl rfl, field_setField_self, fun name hname ↦ ?_⟩
    have hname' : ¬ text "value" = name := Ne.symm hname
    rw [field_setField_of_ne hname]
    have hconcat : field name ([(text "type", .str (text "string_set"))] ++
        [(text "value", .arr [])]) = _ := field_concat (text "value", .arr [])
    exact (hconcat.trans (if_neg hname')).symm
  · next entry heq =>
    split_ifs at hentry with hset
    obtain rfl := Except.ok.inj hentry
    rw [heq]
    exact ⟨_, hread _ rfl hset, field_setField_self, fun name hname ↦ field_setField_of_ne hname⟩
  · cases hentry

end TVSettings

namespace MobileSettings

variable {json : JsonModule} {blob : Value} {stored : List (Text × Value)} {keys : Finset Text}

/-- The written text of a payload is read back. -/
def RoundTrips (json : JsonModule) (payload : Value) : Prop :=
  json.loads (json.dumps payload) = some payload ∧ strip (json.dumps payload) ≠ []

theorem payload_write (h : payload json blob = .ok stored)
    (hjson : RoundTrips json (setKeys stored keys)) :
    payload json (write json blob keys) =
      .ok (setField (text "dismissedNextUpKeys") (sortedStrings keys) stored) := by
  obtain ⟨fields, hfeatures, -⟩ := bind_eq_ok.mp h
  rw [write, h]
  dsimp only
  rw [payload, path, features_put hfeatures]
  dsimp only [bind, Except.bind, Value.put]
  rw [field_setField_self]
  dsimp only
  rw [if_neg hjson.2, hjson.1]
  rfl

end MobileSettings

section merge

variable {adapter : Adapter} {request : Request} {objects : Objects} {old keys : Finset Text}

/-- A format whose merges are read back and touch their entry alone. -/
structure Adapter.Faithful (adapter : Adapter) (blob : Value) (keys : Finset Text) : Prop where
  decodes : adapter.dismissals (adapter.write blob keys) = .ok keys
  settings : ∀ path, Apart adapter.path path →
    (adapter.write blob keys).lookup path = blob.lookup path
  beside : ∃ stored stored', adapter.entry blob = .ok stored ∧
    adapter.entry (adapter.write blob keys) = .ok stored' ∧
      ∀ name ≠ adapter.name, field name stored' = field name stored

theorem mergeKeys_of_same (h : adapter.dismissals objects.original = .ok old)
    (hsame : adapter.keys request old = old) :
    mergeKeys adapter.dismissals adapter.keys adapter.write request objects =
      .ok ((.original, old), objects) := by
  rw [mergeKeys, h]
  dsimp only [bind, Except.bind]
  rw [if_pos hsame, hsame]
  rfl

/-- A merge touches only the requested titles, where what it writes is read back. -/
theorem exists_touchesOnly
    (hmerge : adapter.merge = mergeKeys adapter.dismissals adapter.keys adapter.write)
    (h : adapter.dismissals objects.original = .ok old)
    (hexact : ∀ key, key ∈ adapter.keys request old ↔
      (key ∈ old ∧ contentKey key ∉ request.visible ∧
        (adapter.normalizes = true → contentKey key ∉ request.hidden)) ∨
      ∃ title ∈ request.hidden, title ∉ request.visible ∧ key ∈ adapter.keysOf request title)
    (htitles : ∀ title ∈ request.hidden, ∀ key ∈ adapter.keysOf request title,
      contentKey key = title)
    (hagain : adapter.keys request (adapter.keys request old) = adapter.keys request old)
    (hentry : ∃ stored, adapter.entry objects.original = .ok stored)
    (hwrite : adapter.Faithful objects.original (adapter.keys request old)) :
    ∃ ref keys after, adapter.merge request objects = .ok ((ref, keys), after) ∧
      TouchesOnly adapter request old objects after ref keys := by
  have hkeeps : ∀ key ∈ old, contentKey key ∉ request.hidden →
      contentKey key ∉ request.visible → key ∈ adapter.keys request old :=
    fun key hkey hhidden hvisible ↦ (hexact key).mpr (.inl ⟨hkey, hvisible, fun _ ↦ hhidden⟩)
  have hshows : ∀ key ∈ adapter.keys request old, contentKey key ∉ request.visible := by
    intro key hkey
    obtain ⟨-, hvisible, -⟩ | ⟨title, hhidden, hvisible, hkey⟩ := (hexact key).mp hkey
    · exact hvisible
    · rwa [htitles title hhidden key hkey]
  by_cases hsame : adapter.keys request old = old
  · have hresult (copy : Value) : adapter.merge request ⟨objects.original, copy⟩ =
        .ok ((.original, old), ⟨objects.original, copy⟩) := by
      rw [hmerge]
      exact mergeKeys_of_same h hsame
    obtain ⟨stored, hstored⟩ := hentry
    rw [hsame] at hexact hkeeps hshows
    exact ⟨.original, old, objects, hresult objects.copy,
      { decodes := h
        exact := hexact
        keeps := hkeeps
        shows := hshows
        settings := fun _ _ ↦ rfl
        beside := ⟨stored, stored, hstored, hstored, fun _ _ ↦ rfl⟩
        original := rfl
        again := hresult }⟩
  · refine ⟨.copy, adapter.keys request old,
      ⟨objects.original, adapter.write objects.original (adapter.keys request old)⟩, ?_,
      { decodes := hwrite.decodes
        exact := hexact
        keeps := hkeeps
        shows := hshows
        settings := hwrite.settings
        beside := hwrite.beside
        original := rfl
        again := fun copy ↦ ?_ }⟩
    · rw [hmerge, mergeKeys, h]
      dsimp only [bind, Except.bind]
      rw [if_neg hsame]
      rfl
    · rw [hmerge]
      exact mergeKeys_of_same hwrite.decodes hagain

variable {json : JsonModule}

theorem tvAdapter_faithful {blob : Value} (h : TVSettings.dismissals blob = .ok old) :
    tvAdapter.Faithful blob keys := by
  obtain ⟨stored, hstored, -⟩ := bind_eq_ok.mp h
  obtain ⟨stored', hwrite, hset, hbeside⟩ :
      ∃ stored', TVSettings.encoded (TVSettings.write blob keys) = .ok stored' ∧ _ :=
    TVSettings.encoded_write hstored
  refine ⟨?_, fun path hpath ↦ Value.lookup_put_of_apart hpath blob,
    stored, stored', hstored, hwrite, hbeside⟩
  have hread := stringSet_sortedStrings keys
  rw [← hset] at hread
  exact bind_eq_ok.mpr ⟨stored', hwrite, hread⟩

theorem mobileAdapter_faithful {blob : Value}
    (h : MobileSettings.dismissals json blob = .ok old)
    (hjson : ∀ payload, MobileSettings.payload json blob = .ok payload →
      MobileSettings.RoundTrips json (MobileSettings.setKeys payload keys)) :
    (mobileAdapter json).Faithful blob keys := by
  obtain ⟨stored, hstored, -⟩ := bind_eq_ok.mp h
  have hwrite := MobileSettings.payload_write hstored (hjson stored hstored)
  refine ⟨?_, fun path hpath ↦ ?_, stored, _, hstored, hwrite, fun name hname ↦ ?_⟩
  · refine bind_eq_ok.mpr ⟨_, hwrite, ?_⟩
    rw [field_setField_self]
    exact stringSet_sortedStrings keys
  · have hput : (mobileAdapter json).write blob keys = (Value.str (json.dumps
        (MobileSettings.setKeys stored keys))).put MobileSettings.path blob := by
      simp only [mobileAdapter, MobileSettings.write, hstored]
    rw [hput]
    exact Value.lookup_put_of_apart hpath blob
  · exact field_setField_of_ne hname

/-- Changing Next Up visibility touches only the requested titles, in both formats. -/
theorem merge_touches_only (hadapter : adapter ∈ settingsAdapters json)
    (hvalid : adapter.dismissals objects.original = .ok old)
    (htitles : ∀ title ∈ request.hidden, contentKey title = title)
    (hjson : ∀ payload, MobileSettings.payload json objects.original = .ok payload →
      MobileSettings.RoundTrips json
        (MobileSettings.setKeys payload (MobileSettings.keys request old))) :
    ∃ ref keys after, adapter.merge request objects = .ok ((ref, keys), after) ∧
      TouchesOnly adapter request old objects after ref keys := by
  simp only [settingsAdapters, List.mem_cons, List.not_mem_nil, or_false] at hadapter
  obtain ⟨stored, hstored⟩ : ∃ stored, adapter.entry objects.original = .ok stored := by
    obtain rfl | rfl := hadapter
    · exact (bind_eq_ok.mp hvalid).imp fun _ h ↦ h.1
    · exact (bind_eq_ok.mp hvalid).imp fun _ h ↦ h.1
  obtain rfl | rfl := hadapter
  · refine exists_touchesOnly rfl hvalid (fun key ↦ ?_) (fun title htitle key hkey ↦ ?_)
      TVSettings.keys_keys ⟨stored, hstored⟩ (tvAdapter_faithful hvalid)
    · refine TVSettings.mem_keys.trans ?_
      simp only [tvAdapter, forall_const, Finset.mem_singleton]
      refine or_congr (and_congr_right fun _ ↦ and_comm) ⟨fun h ↦ ⟨key, h.1, h.2, rfl⟩, ?_⟩
      rintro ⟨title, hhidden, hvisible, rfl⟩
      exact ⟨hhidden, hvisible⟩
    · obtain rfl := Finset.mem_singleton.mp hkey
      exact htitles key htitle
  · refine exists_touchesOnly rfl hvalid (fun key ↦ ?_) (fun title htitle key hkey ↦ ?_)
      MobileSettings.keys_keys ⟨stored, hstored⟩ (mobileAdapter_faithful hvalid hjson)
    · refine MobileSettings.mem_keys.trans ?_
      simp only [mobileAdapter, Bool.false_eq_true, false_implies, and_true, and_assoc,
        Finset.mem_image]
    · obtain ⟨episode, -, rfl⟩ := Finset.mem_image.mp hkey
      exact contentKey_seedKey (htitles title htitle)

/-- The text of a payload that dismisses one key. -/
def oneKeyText (key : Text) : Text :=
  text "\x7b\"dismissedNextUpKeys\":[\"" ++ key ++ text "\"]\x7d"

def oneKeyPayload (key : Text) : Value :=
  .obj [(text "dismissedNextUpKeys", .arr [.str key])]

/-- A reader and a writer of the payloads of two keys. -/
def oneKeyJson : JsonModule where
  loads t :=
    if t = oneKeyText (text "tt1|1|2") then some (oneKeyPayload (text "tt1|1|2"))
    else if t = oneKeyText (text "tt2|1|3") then some (oneKeyPayload (text "tt2|1|3"))
    else none
  dumps v :=
    match v with
    | .obj [(_, .arr [.str key])] => oneKeyText key
    | _ => []

def oneKeyBlob : Value :=
  .obj [(text "version", .int 4), (text "features", .obj
    [(text "continue_watching_settings_payload", .str (oneKeyText (text "tt1|1|2")))])]

/-- Hides one series, whose third episode seeds it, and shows another. -/
def oneKeyRequest : Request :=
  ⟨{text "tt2"}, {text "tt1"}, Dict.empty.set (text "tt2") {(1, 3)}⟩

theorem merge_touches_only_mobile : ∃ ref keys after,
    (mobileAdapter oneKeyJson).merge oneKeyRequest ⟨oneKeyBlob, .null⟩ =
      .ok ((ref, keys), after) ∧ TouchesOnly (mobileAdapter oneKeyJson) oneKeyRequest
        {text "tt1|1|2"} ⟨oneKeyBlob, .null⟩ after ref keys := by
  have hadapter : mobileAdapter oneKeyJson ∈ settingsAdapters oneKeyJson :=
    List.mem_cons_of_mem _ List.mem_cons_self
  refine merge_touches_only hadapter rfl ?_ fun payload hpayload ↦ ?_
  · intro title htitle
    obtain rfl := Finset.mem_singleton.mp htitle
    rfl
  · have hpayload' : MobileSettings.payload oneKeyJson oneKeyBlob =
        .ok [(text "dismissedNextUpKeys", .arr [.str (text "tt1|1|2")])] := rfl
    have hkeys : MobileSettings.keys oneKeyRequest {text "tt1|1|2"} = {text "tt2|1|3"} := rfl
    obtain rfl := Except.ok.inj (hpayload'.symm.trans hpayload)
    rw [hkeys, MobileSettings.setKeys, sortedStrings, Finset.sort_singleton]
    exact ⟨rfl, List.cons_ne_nil _ _⟩

end merge

end formats

end AnyList.Streaming.NextUpSettings
