import SymbolIndex.Proofs.Editor.Calls
import SymbolIndex.Proofs.Store.Opening

/-!
# Sessions of the editor

An editor calls functions in any order, while the owners of open indexes do their work and files
change. Which indexes are open, and which tickets are given up, only depends on what has been called
since: closing the index of a project gives up its tickets, and closing all indexes at once does
not.

* `SessionMove`, `Session.move`: what may happen in a session;
* `SessionRun`, `SessionRun.Opened`, `SessionRun.Closed`, `SessionRun.Begun`,
  `SessionRun.HandedOut`: sessions, and what has happened in them;
* `SessionRun.sound`, `SessionRun.isOpen_iff`, `SessionRun.standing_iff`: the state of a session
  from its history;
* `SessionRun.Orderly`, `SessionRun.orderly`: what the editor is told;
* `reopenedRun`: a ticket that outlives its index.
-/

namespace SymbolIndex.Editor

/-- What may happen in a session. -/
inductive SessionMove where
  | call (q : Request)
  /-- the owner of an open index takes a step -/
  | owner (root : String)
  /-- somebody changes what is on the disk -/
  | change (disk : Disk)

namespace Session

/-- The session after a step of the owner of an index, if that is open. -/
def turn (s : Session) (root : String) : Session :=
  match s.indexes.lookup root with
  | some i => s.put root { i with serializer := i.serializer.ownerStep.getD i.serializer }
  | none => s

def move (s : Session) : SessionMove → Session
  | .call q => (s.answer q).2
  | .owner root => s.turn root
  | .change disk => { s with disk }

theorem keeps_turn (s : Session) (root : String) : s.Keeps [] (s.turn root) := by
  unfold turn
  cases hl : s.indexes.lookup root with
  | none => exact .refl s
  | some i =>
    refine keeps_put ⟨i, hl⟩ fun hs => ?_
    have hi : i.serializer.Reports Error.IsOwn := hs.indexes root i hl
    cases hstep : i.serializer.ownerStep with
    | none => exact hi
    | some serializer => exact hi.ownerStep Index.isOwn_dropped hstep

theorem keeps_move (s : Session) {m : SessionMove} (h : ∀ q, m ≠ .call q) :
    s.Keeps [] (s.move m) := by
  cases m with
  | call q => exact absurd rfl (h q)
  | owner root => exact s.keeps_turn root
  | change disk => exact s.keeps_withDisk disk

end Session

/-! ## Runs -/

/-- A session in which nothing has been opened yet, and what happens in it. -/
structure SessionRun where
  disk : Disk
  dataDirectory : String
  seconds : String
  moves : ℕ → SessionMove

namespace SessionRun

variable (R : SessionRun)

/-- The session after some moves. -/
def after : ℕ → Session
  | 0 => { disk := R.disk, dataDirectory := R.dataDirectory, seconds := R.seconds }
  | t + 1 => (after t).move (R.moves t)

/-- What a call would be answered after some moves. -/
def answer (t : ℕ) (q : Request) : Except Failure Value := ((R.after t).answer q).1

/-- A move opens the index of a project. -/
def Opened (t : ℕ) (root : String) : Prop :=
  ∃ q, R.moves t = .call q ∧ (R.after t).Opens q root

/-- A move closes the index of a project. -/
def Closed (t : ℕ) (root : String) : Prop :=
  ∃ q, R.moves t = .call q ∧ (R.after t).Closes q root

/-- A move closes all indexes. -/
def CleanedUp (t : ℕ) : Prop := R.moves t = .call .cleanup

/-- A move begins a fetch under a ticket. -/
def Begun (t : ℕ) (root : String) (ticket : ℕ) : Prop :=
  ∃ q, R.moves t = .call q ∧ (R.after t).Begins q root ticket

/-- A move hands out the result of a fetch. -/
def HandedOut (t : ℕ) (root : String) (ticket : ℕ) : Prop :=
  ∃ q, R.moves t = .call q ∧ (R.after t).HandsOut q root ticket

/-- The latest fetch of a project has begun in move `v`. Before move `t` it has not been handed out,
and nobody has closed the index by itself. -/
structure Stands (t v : ℕ) (root : String) (ticket : ℕ) : Prop where
  lt : v < t
  begun : R.Begun v root ticket
  kept : ∀ w, v < w → w < t →
    ¬((∃ ticket', R.Begun w root ticket') ∨ R.Closed w root ∨ R.HandedOut w root ticket)

variable {R}

theorem sound (R : SessionRun) (t : ℕ) : (R.after t).Sound := by
  induction t with
  | zero =>
    exact ⟨List.nodup_nil, fun _ _ h => (nomatch h), fun _ _ _ h => (nomatch h),
      fun _ _ h => (nomatch h)⟩
  | succ t ih =>
    rw [after]
    cases hm : R.moves t with
    | call q => exact Session.sound_answer ih q
    | owner root => exact ((R.after t).keeps_turn root).sound ih
    | change disk => exact ((R.after t).keeps_withDisk disk).sound ih

/-! ## One move -/

theorem isOpen_succ (t : ℕ) (root : String) : (R.after (t + 1)).IsOpen root ↔
    R.Opened t root ∨ (R.after t).IsOpen root ∧ ¬(R.Closed t root ∨ R.CleanedUp t) := by
  rw [after]
  by_cases hcall : ∃ q, R.moves t = .call q
  · obtain ⟨q, hq⟩ := hcall
    rw [hq]
    refine (Session.isOpen_answer (R.sound t) q root).trans ?_
    simp [Opened, Closed, CleanedUp, hq]
  · have hno : ∀ q, R.moves t ≠ .call q := fun q hq => hcall ⟨q, hq⟩
    rw [((R.after t).keeps_move hno).isOpen]
    simp [Opened, Closed, CleanedUp, hno]

theorem standing_succ (t : ℕ) (root : String) (ticket : ℕ) :
    (R.after (t + 1)).standing root = some ticket ↔ R.Begun t root ticket ∨
      (R.after t).standing root = some ticket ∧
        ¬((∃ ticket', R.Begun t root ticket') ∨ R.Closed t root ∨ R.HandedOut t root ticket) := by
  rw [after]
  by_cases hcall : ∃ q, R.moves t = .call q
  · obtain ⟨q, hq⟩ := hcall
    rw [hq]
    refine (Session.standing_answer (R.sound t) q root ticket).trans ?_
    simp [Begun, Closed, HandedOut, hq]
  · have hno : ∀ q, R.moves t ≠ .call q := fun q hq => hcall ⟨q, hq⟩
    rw [((R.after t).keeps_move hno).standing]
    simp [Begun, Closed, HandedOut, hno]

theorem nextTicket_le_succ (t : ℕ) : (R.after t).nextTicket ≤ (R.after (t + 1)).nextTicket := by
  rw [after]
  by_cases hcall : ∃ q, R.moves t = .call q
  · obtain ⟨q, hq⟩ := hcall
    rw [hq]
    rcases Session.nextTicket_answer (R.sound t) q with h | h
    · exact h.ge
    · exact (Nat.le_succ _).trans h.ge
  · have hno : ∀ q, R.moves t ≠ .call q := fun q hq => hcall ⟨q, hq⟩
    exact ((R.after t).keeps_move hno).nextTicket.ge

/-! ## The history of a session -/

theorem nextTicket_mono {t u : ℕ} (h : t ≤ u) :
    (R.after t).nextTicket ≤ (R.after u).nextTicket := by
  induction h with
  | refl => exact le_rfl
  | step _ ih => exact ih.trans (nextTicket_le_succ _)

theorem eq_nextTicket_of_begun {t : ℕ} {root : String} {ticket : ℕ} (h : R.Begun t root ticket) :
    ticket = (R.after t).nextTicket ∧ (R.after (t + 1)).nextTicket = ticket + 1 := by
  obtain ⟨q, hq, hb⟩ := h
  have hnext := Session.nextTicket_of_begins hb
  obtain ⟨path, text, limit, -, -, -, rfl⟩ := hb
  refine ⟨rfl, ?_⟩
  rw [after, hq]
  exact hnext

/-- **No ticket is given to two fetches.** -/
theorem begun_unique {t u : ℕ} {root root' : String} {ticket : ℕ} (h : R.Begun t root ticket)
    (h' : R.Begun u root' ticket) : t = u := by
  have hbefore : ∀ {t u : ℕ} {root root' : String}, R.Begun t root ticket →
      R.Begun u root' ticket → ¬t < u := by
    intro t u root root' ht hu hlt
    have hmono : (R.after (t + 1)).nextTicket ≤ (R.after u).nextTicket := nextTicket_mono hlt
    rw [(eq_nextTicket_of_begun ht).2, ← (eq_nextTicket_of_begun hu).1] at hmono
    omega
  exact Nat.le_antisymm (Nat.not_lt.mp (hbefore h' h)) (Nat.not_lt.mp (hbefore h h'))

/-- **An index is open** from the move that has opened it until it is closed. -/
theorem isOpen_iff (t : ℕ) (root : String) : (R.after t).IsOpen root ↔
    ∃ v < t, R.Opened v root ∧ ∀ w, v < w → w < t → ¬(R.Closed w root ∨ R.CleanedUp w) := by
  induction t with
  | zero => exact ⟨fun ⟨i, hi⟩ => (nomatch hi), fun ⟨v, hv, _⟩ => absurd hv (Nat.not_lt_zero v)⟩
  | succ t ih =>
    rw [isOpen_succ, ih]
    constructor
    · rintro (hopen | ⟨⟨v, hv, hopen, hkept⟩, hnow⟩)
      · exact ⟨t, Nat.lt_succ_self t, hopen, fun w hw hwt => by omega⟩
      · refine ⟨v, Nat.lt_succ_of_lt hv, hopen, fun w hw hwt => ?_⟩
        rcases Nat.lt_succ_iff_lt_or_eq.mp hwt with hwt | rfl
        · exact hkept w hw hwt
        · exact hnow
    · rintro ⟨v, hv, hopen, hkept⟩
      rcases Nat.lt_succ_iff_lt_or_eq.mp hv with hvt | rfl
      · exact .inr ⟨⟨v, hvt, hopen, fun w hw hwt => hkept w hw (Nat.lt_succ_of_lt hwt)⟩,
          hkept t hvt (Nat.lt_succ_self t)⟩
      · exact .inl hopen

/-- **A ticket stands** from the move that has begun its fetch until there is a newer fetch of the
project, the result is handed out, or somebody closes the index by itself. -/
theorem standing_iff (t : ℕ) (root : String) (ticket : ℕ) :
    (R.after t).standing root = some ticket ↔ ∃ v, R.Stands t v root ticket := by
  induction t with
  | zero => exact ⟨fun h => (nomatch h), fun ⟨v, hv⟩ => absurd hv.lt (Nat.not_lt_zero v)⟩
  | succ t ih =>
    rw [standing_succ, ih]
    constructor
    · rintro (hbegun | ⟨⟨v, hv⟩, hnow⟩)
      · exact ⟨t, Nat.lt_succ_self t, hbegun, fun w hw hwt => by omega⟩
      · refine ⟨v, Nat.lt_succ_of_lt hv.lt, hv.begun, fun w hw hwt => ?_⟩
        rcases Nat.lt_succ_iff_lt_or_eq.mp hwt with hwt | rfl
        · exact hv.kept w hw hwt
        · exact hnow
    · rintro ⟨v, hv⟩
      rcases Nat.lt_succ_iff_lt_or_eq.mp hv.lt with hvt | rfl
      · exact .inr ⟨⟨v, hvt, hv.begun, fun w hw hwt => hv.kept w hw (Nat.lt_succ_of_lt hwt)⟩,
          hv.kept t hvt (Nat.lt_succ_self t)⟩
      · exact .inl hv.begun

/-! ## What the editor is told -/

variable (R) in
/-- What the editor is told about indexes and tickets. -/
structure Orderly : Prop where
  /-- no directory has two open indexes -/
  distinct : ∀ t, ((R.after t).indexes.map Prod.fst).Nodup
  /-- an index is open from the move that has opened it until it is closed, by itself or with all
  others -/
  isOpen : ∀ t root, (R.after t).IsOpen root ↔
    ∃ v < t, R.Opened v root ∧ ∀ w, v < w → w < t → ¬(R.Closed w root ∨ R.CleanedUp w)
  /-- an index that can be opened is told to be new if there has been none, and is open then -/
  opens : ∀ t path b, R.answer t (.openIndex path) = .ok (.boolean b) →
    ∃ root, (R.after t).rootOf path = .ok root ∧ (b = true ↔ ¬(R.after t).IsOpen root) ∧
      ((R.after t).answer (.openIndex path)).2.IsOpen root
  /-- closing an index tells whether there has been one -/
  closes : ∀ t path root, (R.after t).rootOf path = .ok root →
    ∃ b, R.answer t (.closeIndex path) = .ok (.boolean b) ∧ (b = true ↔ (R.after t).IsOpen root)
  /-- without an open index nothing can be found or fetched -/
  unopened : ∀ t path root q, (R.after t).rootOf path = .ok root → ¬(R.after t).IsOpen root →
    q.Uses path → R.answer t q = .error (.ofError (.indexNotOpen root))
  /-- where an index is open, nobody is told that none is -/
  opened : ∀ t path root q, (R.after t).rootOf path = .ok root → (R.after t).IsOpen root →
    q.Uses path → ∀ other, R.answer t q ≠ .error (.ofError (.indexNotOpen other))
  /-- a ticket is given up unless it stands -/
  polls : ∀ t path root ticket, (R.after t).rootOf path = .ok root → (R.after t).IsOpen root →
    (R.answer t (.poll path ticket) = .ok (.boolean false) ↔ ∀ v, ¬R.Stands t v root ticket)
  /-- so whoever closes the index of a project gives up all tickets that there have been -/
  closing : ∀ v w t path root root' ticket, R.Begun v root' ticket → v < w → R.Closed w root →
    w < t → (R.after t).rootOf path = .ok root → (R.after t).IsOpen root →
    R.answer t (.poll path ticket) = .ok (.boolean false)
  /-- but whoever closes all indexes at once does not give up the tickets that stand -/
  cleaning : ∀ w t path root ticket, R.CleanedUp w → (R.after w).standing root = some ticket →
    w < t → (∀ u, w < u → u < t →
      ¬((∃ ticket', R.Begun u root ticket') ∨ R.Closed u root ∨ R.HandedOut u root ticket)) →
    (R.after t).rootOf path = .ok root → (R.after t).IsOpen root →
    R.answer t (.poll path ticket) ≠ .ok (.boolean false)

theorem of_opens {t : ℕ} {path : String} {b : Bool}
    (h : R.answer t (.openIndex path) = .ok (.boolean b)) :
    ∃ root, (R.after t).rootOf path = .ok root ∧ (b = true ↔ ¬(R.after t).IsOpen root) ∧
      ((R.after t).answer (.openIndex path)).2.IsOpen root := by
  have hr : ((R.after t).openIndex path).1 = .ok b := Session.reported_boolean_iff.mp h
  have hopen := (R.after t).isOpen_openIndex path
  rcases (R.after t).openIndex_cases path with
    ⟨e, he⟩ | ⟨root, hp, ⟨hthere, he⟩ | ⟨hnone, i, disk, -, he⟩⟩
  · rw [he] at hr
    cases hr
  · rw [he] at hr
    cases hr
    exact ⟨root, hp, by simp [hthere], (hopen root).mpr (.inr hthere)⟩
  · have hb : b = true := Except.ok.inj (hr.symm.trans (congrArg Prod.fst he))
    exact ⟨root, hp, by simp [hb, hnone], (hopen root).mpr (.inl ⟨hp, congrArg Prod.fst he⟩)⟩

theorem answer_closeIndex {t : ℕ} {path root : String} (hp : (R.after t).rootOf path = .ok root) :
    ∃ b, R.answer t (.closeIndex path) = .ok (.boolean b) ∧
      (b = true ↔ (R.after t).IsOpen root) := by
  rcases (R.after t).closeIndex_cases path with
    ⟨e, he, -⟩ | ⟨root', hp', ⟨hnone, h⟩ | ⟨hopen, s', h, -⟩⟩
  · cases hp.symm.trans he
  · obtain rfl := Except.ok.inj (hp.symm.trans hp')
    refine ⟨false, Session.reported_boolean_iff.mpr (congrArg Prod.fst h), ?_⟩
    simp [hnone]
  · obtain rfl := Except.ok.inj (hp.symm.trans hp')
    refine ⟨true, Session.reported_boolean_iff.mpr (congrArg Prod.fst h), ?_⟩
    simp [hopen]

theorem answer_poll_iff {t : ℕ} {path root : String} {ticket : ℕ}
    (hp : (R.after t).rootOf path = .ok root) (h : (R.after t).IsOpen root) :
    R.answer t (.poll path ticket) = .ok (.boolean false) ↔ ∀ v, ¬R.Stands t v root ticket := by
  rw [answer, Session.answer_poll_iff hp h, ne_eq, standing_iff, not_exists]

theorem not_stands_of_closed {v w t : ℕ} {root root' : String} {ticket : ℕ}
    (hb : R.Begun v root' ticket) (hvw : v < w) (hc : R.Closed w root) (hwt : w < t) (u : ℕ) :
    ¬R.Stands t u root ticket := by
  intro hu
  obtain rfl := begun_unique hu.begun hb
  exact hu.kept w hvw hwt (.inr (.inl hc))

/-- A cleanup is no reason for a ticket to fall. -/
theorem stands_of_cleanedUp {w t : ℕ} {root : String} {ticket : ℕ} (hw : R.CleanedUp w)
    (hs : (R.after w).standing root = some ticket) (hwt : w < t)
    (hkept : ∀ u, w < u → u < t →
      ¬((∃ ticket', R.Begun u root ticket') ∨ R.Closed u root ∨ R.HandedOut u root ticket)) :
    ∃ v, R.Stands t v root ticket := by
  obtain ⟨v, hv⟩ := (standing_iff w root ticket).mp hs
  refine ⟨v, hv.lt.trans hwt, hv.begun, fun u hu hut => ?_⟩
  rcases Nat.lt_trichotomy u w with huw | rfl | hwu
  · exact hv.kept u hu huw
  · have hq : R.moves u = .call .cleanup := hw
    simp [Begun, Closed, HandedOut, hq, Session.Begins, Session.Closes, Session.HandsOut]
  · exact hkept u hwu hut

/-- **What the editor is told about indexes and tickets only depends on its calls.** Tickets are
given up with the index of their project, unless all indexes are closed at once. -/
theorem orderly (R : SessionRun) : R.Orderly where
  distinct t := (R.sound t).distinct
  isOpen := isOpen_iff
  opens _ _ _ := of_opens
  closes _ _ _ := answer_closeIndex
  unopened _ _ _ _ := Session.answer_of_not_isOpen
  opened t _ _ _ := Session.answer_ne_of_isOpen (R.sound t)
  polls _ _ _ _ := answer_poll_iff
  closing _ _ _ _ _ _ _ hb hvw hc hwt hp h :=
    (answer_poll_iff hp h).mpr (not_stands_of_closed hb hvw hc hwt)
  cleaning _ _ _ _ _ hw hs hwt hkept hp h hfalse :=
    have ⟨v, hv⟩ := stands_of_cleanedUp hw hs hwt hkept
    (answer_poll_iff hp h).mp hfalse v hv

end SessionRun

/-! ## A project that is opened again -/

/-- A project in the root directory of which there is only the database. -/
def projectFiles (data lock : ByteArray) : FileTree :=
  ⟨[(".zem", .directory [("data.mdb", .file data), ("lock.mdb", .file lock)])]⟩

namespace projectFiles

variable (data lock : ByteArray) (last : Bool)

theorem place_root : (projectFiles data lock).place "/" last =
    .ok (.found [] (.directory (projectFiles data lock).children)) := by
  simp [FileTree.place, pathPieces, Text.splitAt, Text.consHead, FileTree.follow, FileTree.find?,
    Node.find?]

theorem place_settings :
    (projectFiles data lock).place "/.zem.toml" last = .ok (.missing [] ".zem.toml") := by
  simp [FileTree.place, pathPieces, Text.splitAt, Text.consHead, FileTree.follow, FileTree.find?,
    Node.find?, projectFiles, lookup_cons_eq]

theorem place_database : (projectFiles data lock).place "/.zem" last =
    .ok (.found [".zem"] (.directory [("data.mdb", .file data), ("lock.mdb", .file lock)])) := by
  simp [FileTree.place, pathPieces, Text.splitAt, Text.consHead, FileTree.follow, FileTree.find?,
    Node.find?, projectFiles]

theorem place_data : (projectFiles data lock).place "/.zem/data.mdb" last =
    .ok (.found [".zem", "data.mdb"] (.file data)) := by
  simp [FileTree.place, pathPieces, Text.splitAt, Text.consHead, FileTree.follow, FileTree.find?,
    Node.find?, projectFiles]

theorem place_lock : (projectFiles data lock).place "/.zem/lock.mdb" last =
    .ok (.found [".zem", "lock.mdb"] (.file lock)) := by
  simp [FileTree.place, pathPieces, Text.splitAt, Text.consHead, FileTree.follow, FileTree.find?,
    Node.find?, projectFiles, lookup_cons_eq]

theorem write_data (content : ByteArray) :
    (projectFiles data lock).write "/.zem/data.mdb" content = .ok (projectFiles content lock) := by
  rw [FileTree.write, place_data]
  rfl

theorem write_lock (content : ByteArray) :
    (projectFiles data lock).write "/.zem/lock.mdb" content = .ok (projectFiles data content) := by
  rw [FileTree.write, place_lock]
  rfl

theorem canonical_root : (projectFiles data lock).canonical "/" = .ok "/" := by
  rw [FileTree.canonical, FileTree.locate, place_root]
  rfl

theorem canonical_database : (projectFiles data lock).canonical "/.zem" = .ok "/.zem" := by
  rw [FileTree.canonical, FileTree.locate, place_database]
  rfl

theorem makeDirectories_database :
    (projectFiles data lock).makeDirectories "/.zem" = .ok (projectFiles data lock) := by
  have hmade : (projectFiles data lock).makeDirectory "/.zem" = .error .alreadyExists := by
    rw [FileTree.makeDirectory, place_database]
    rfl
  have hthere : (projectFiles data lock).isDirectory "/.zem" = true := by
    rw [FileTree.isDirectory, FileTree.locate, place_database]
    rfl
  have hpath : String.ofList "/.zem".toList = "/.zem" := rfl
  rw [FileTree.makeDirectories, FileTree.makeDirectoriesFrom, if_neg (by decide), hpath, hmade]
  exact if_pos hthere

theorem load_settings : Settings.load (projectFiles data lock) "/" = .ok {} := by
  have hpath : Path.resolve "/" settingsFile = "/.zem.toml" := by decide
  have hmissing : (projectFiles data lock).isFile "/.zem.toml" = false := by
    rw [FileTree.isFile, FileTree.locate, place_settings]
    rfl
  rw [Settings.load, hpath]
  exact if_neg (by rw [hmissing]; decide)

theorem withDatabaseFiles : ∃ page,
    Disk.withDatabaseFiles (projectFiles data lock) "/.zem" = projectFiles page page := by
  have hdata : "/.zem" ++ "/data.mdb" = "/.zem/data.mdb" := rfl
  have hlock : "/.zem" ++ "/lock.mdb" = "/.zem/lock.mdb" := rfl
  unfold Disk.withDatabaseFiles
  generalize (⟨(List.replicate pageSize 0).toArray⟩ : ByteArray) = page
  refine ⟨page, ?_⟩
  rw [Disk.databaseFiles, List.foldl_cons, List.foldl_cons, List.foldl_nil, hdata, hlock,
    write_data, Except.toOption, Option.getD_some, write_lock, Except.toOption, Option.getD_some]

theorem databaseFiles_isFile :
    Disk.databaseFiles.all (fun name => (projectFiles data lock).isFile ("/.zem" ++ name)) =
      true := by
  have hdata : (projectFiles data lock).isFile "/.zem/data.mdb" = true := by
    rw [FileTree.isFile, FileTree.locate, place_data]
    rfl
  have hlock : (projectFiles data lock).isFile "/.zem/lock.mdb" = true := by
    rw [FileTree.isFile, FileTree.locate, place_lock]
    rfl
  simp [Disk.databaseFiles, hdata, hlock]

theorem databaseAt_database {databases : List (String × Database)} {opened : List String}
    (h : databases.lookup "/.zem" = some {} ∨ databases.lookup "/.zem" = none ∧ data.size = 0) :
    ({ files := projectFiles data lock, databases, opened } : Disk).databaseAt "/.zem" =
      .ok {} := by
  have hread : (projectFiles data lock).read ("/.zem" ++ "/data.mdb") = .ok data := by
    rw [show "/.zem" ++ "/data.mdb" = "/.zem/data.mdb" from rfl, FileTree.read, FileTree.locate,
      place_data]
    rfl
  unfold Disk.databaseAt
  simp only [hread]
  rcases h with hkept | ⟨hnone, hempty⟩
  · simp only [hkept]
  · simp only [hnone, if_pos hempty]

end projectFiles

/-- The index of the project before anything has been fetched. -/
def projectIndex : Index where
  root := "/"
  settings := {}
  serializer := Serializer.start {
    name := ownerName
    state := { path := "/.zem", place := "/.zem", database := {}, capacity := defaultMapSize } }

theorem openProject_projectFiles {data lock : ByteArray} {databases : List (String × Database)}
    (h : ({ files := projectFiles data lock, databases } : Disk).databaseAt "/.zem" = .ok {})
    (dataDirectory : String) : ∃ page,
    openProject { files := projectFiles data lock, databases } dataDirectory "/" =
      .ok (projectIndex, { files := projectFiles page page, databases, opened := ["/.zem"] }) := by
  obtain ⟨page, hwritten⟩ := projectFiles.withDatabaseFiles data lock
  have hpath : Settings.databasePath {} dataDirectory "/" = "/.zem" := by
    have hresolve : Path.resolve "/" databaseDirectory = "/.zem" := by decide
    simp [Settings.databasePath, hresolve]
  have hsize : ¬(defaultMapSize % pageSize ≠ 0 ∨ ([] : List String).contains "/.zem" = true) := by
    decide
  have hroom : ¬((if defaultMapSize = 0 then Space.pages.byDefault else defaultMapSize) <
      Space.pages.least) := by decide
  refine ⟨page, ?_⟩
  simp only [openProject, openIndex, Disk.openStore, projectFiles.load_settings, bind, Except.bind,
    projectFiles.canonical_root, Except.mapError, hpath, projectFiles.makeDirectories_database,
    projectFiles.canonical_database, if_neg hsize, h, hwritten,
    projectFiles.databaseFiles_isFile, if_neg hroom]
  rfl

theorem openIndex_projectFiles {s : Session} {data lock : ByteArray}
    {databases : List (String × Database)}
    (hdisk : s.disk = { files := projectFiles data lock, databases }) (hnone : s.indexes = [])
    (h : databases.lookup "/.zem" = some {} ∨ databases.lookup "/.zem" = none ∧ data.size = 0) :
    ∃ page, s.openIndex "/" = (.ok true, { s with
      disk := { files := projectFiles page page, databases, opened := ["/.zem"] }
      indexes := [("/", projectIndex)] }) := by
  obtain ⟨page, hopen⟩ :=
    openProject_projectFiles (projectFiles.databaseAt_database data lock h) s.dataDirectory
  have hroot : s.rootOf "/" = .ok "/" := by
    rw [Session.rootOf, hdisk, projectFiles.canonical_root]
    rfl
  refine ⟨page, ?_⟩
  rw [Session.openIndex, hroot, hnone]
  simp only [List.lookup_nil, hdisk, hopen]

/-- The index with the query of a fetch in its queue. -/
def fetchingIndex (plan : Plan) : Index :=
  { projectIndex with
    serializer := (projectIndex.serializer.interruptPending.submitWith .cancellable
      (queryScript plan (some defaultResultCount)) ⟨.tag 1, []⟩).2 }

theorem delivered_fetchingIndex (plan : Plan) :
    Index.deliveredOf (fetchingIndex plan).stop.takeNotes.1 = [(1, .ok [])] := by
  have hfound : Index.deliveredOf (fetchingIndex plan).stop.takeNotes.1 =
      [(1, .ok (cutTo (some defaultResultCount) (ranked [])))] := by
    with_unfolding_all rfl
  rw [hfound]
  simp [ranked, cutTo, defaultResultCount]

theorem close_fetchingIndex (plan : Plan) (disk : Disk) :
    (fetchingIndex plan).stop.close disk = disk.closeStore projectIndex.serializer.state := by
  have hrest : (fetchingIndex plan).stop.serializer.stop.2.ownerStep = none := by
    with_unfolding_all rfl
  have hstate : (fetchingIndex plan).stop.serializer.stop.2.state =
      projectIndex.serializer.state := by
    with_unfolding_all rfl
  rw [Index.close, Serializer.settle, Serializer.steps_of_rest hrest, hstate]

/-- The editor opens the project, begins a fetch, closes all indexes, opens the project again and
asks for the fetch. -/
def reopenedRun : SessionRun where
  disk := { files := projectFiles ⟨#[]⟩ ⟨#[]⟩ }
  dataDirectory := "/data"
  seconds := "1"
  moves
    | 0 => .call (.openIndex "/")
    | 1 => .call (.fetch "/" "foo" none)
    | 2 => .call .cleanup
    | 3 => .call (.openIndex "/")
    | _ => .call (.poll "/" 1)

namespace reopenedRun

theorem after_one : ∃ page, reopenedRun.after 1 =
    { disk := { files := projectFiles page page, opened := ["/.zem"] }
      dataDirectory := "/data"
      seconds := "1"
      indexes := [("/", projectIndex)] } := by
  obtain ⟨page, h⟩ := openIndex_projectFiles (s := reopenedRun.after 0) rfl rfl (.inr ⟨rfl, rfl⟩)
  exact ⟨page, congrArg Prod.snd h⟩

theorem after_two : ∃ page plan, reopenedRun.after 2 =
    { disk := { files := projectFiles page page, opened := ["/.zem"] }
      dataDirectory := "/data"
      seconds := "1"
      indexes := [("/", fetchingIndex plan)]
      fetches := ⟨[("/", { ticket := 1 })]⟩
      nextTicket := 2 } := by
  obtain ⟨page, h⟩ := after_one
  obtain ⟨plan, hplan, -⟩ := exists_searchPlan "foo"
  have hmove : reopenedRun.after 2 = ((reopenedRun.after 1).fetch "/" "foo" none).2 := rfl
  have hfind : (reopenedRun.after 1).find "/" = .ok ("/", projectIndex) := by
    rw [Session.find_eq_ok_iff, Session.rootOf, h, projectFiles.canonical_root]
    exact ⟨rfl, rfl⟩
  refine ⟨page, plan, ?_⟩
  rw [hmove, Session.fetch, hfind, h]
  simp only [Index.queryAsync, hplan]
  rfl

theorem after_three : ∃ page, reopenedRun.after 3 =
    { disk := { files := projectFiles page page, databases := [("/.zem", {})] }
      dataDirectory := "/data"
      seconds := "1"
      fetches := ⟨[("/", { ticket := 1, result := some (.ok []) })]⟩
      nextTicket := 2 } := by
  obtain ⟨page, plan, h⟩ := after_two
  have hmove : reopenedRun.after 3 = (reopenedRun.after 2).cleanup := rfl
  refine ⟨page, ?_⟩
  rw [hmove, h]
  simp only [Session.cleanup, List.foldl_cons, List.foldl_nil, Session.shut, close_fetchingIndex,
    Session.put, delivered_fetchingIndex]
  rfl

/-- **A ticket may outlive a cleanup**, and is handed out once the project is open again. -/
theorem hands_out_after_cleanup : reopenedRun.Begun 1 "/" 1 ∧ reopenedRun.CleanedUp 2 ∧
    reopenedRun.Opened 3 "/" ∧ reopenedRun.answer 4 (.poll "/" 1) = .ok (.list []) := by
  obtain ⟨page₁, h₁⟩ := after_one
  obtain ⟨page₃, h₃⟩ := after_three
  obtain ⟨page₄, h₄⟩ := openIndex_projectFiles (s := reopenedRun.after 3)
    (congrArg Session.disk h₃) (congrArg Session.indexes h₃) (.inl rfl)
  have hroot (page : ByteArray) {s : Session} (hs : s.disk.files = projectFiles page page) :
      s.rootOf "/" = .ok "/" := by
    rw [Session.rootOf, hs, projectFiles.canonical_root]
    rfl
  have hopen : (reopenedRun.after 1).IsOpen "/" := ⟨projectIndex, by rw [h₁]; rfl⟩
  have hafter : reopenedRun.after 4 = ((reopenedRun.after 3).openIndex "/").2 := rfl
  refine ⟨⟨_, rfl, "/", "foo", none, rfl, hroot page₁ (by rw [h₁]), hopen, by rw [h₁]⟩, rfl,
    ⟨_, rfl, "/", rfl, hroot page₃ (by rw [h₃]), ?_⟩, ?_⟩
  · exact Session.reported_boolean_iff.mpr (congrArg Prod.fst h₄)
  · have hfind : (reopenedRun.after 4).find "/" = .ok ("/", projectIndex) := by
      rw [Session.find_eq_ok_iff, hroot page₄ (by rw [hafter, h₄])]
      exact ⟨rfl, by rw [hafter, h₄]; rfl⟩
    rw [SessionRun.answer, Session.answer_poll hfind, hafter, h₄, h₃]
    rfl

end reopenedRun

end SymbolIndex.Editor
