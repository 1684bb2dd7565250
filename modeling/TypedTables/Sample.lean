import TypedTables.Mapping
import TypedTables.Schema.Plan
/-!
# TypedTables — sample models

Three mapped structs: users and their posts in a local database, and
contacts in a content store. They show every role a field can have: a key
that the database numbers and one that it does not, optional fields with
and without a default, and a member that is not stored but filled in after
loading.
-/

namespace TypedTables

namespace Sample

/-- Tables and indexes are left alone where they exist. -/
def options : DdlOptions := { ifNotExists := true, emitIndexes := true }

def appDatabase : Provider := { name := "AppDatabase", kind := .local }

def contactsProvider : Provider :=
  { name := "ContactsProvider", kind := .content, authority := some "com.example.contacts",
    count := .countColumn }

/-- The key that users and contacts share. -/
def entityKey : Field :=
  { name := "id", columnName := "_id", semanticType := .long, declaredType := "i64",
    isPrimaryKey := true, isAutoIncrement := true }

/-- The slot of the shared key. -/
def entityKeySlot : Slot :=
  { field := "id", column := "_id", type := .required (.integer .i64), role := .numbered,
    isKey := true }

/-- A slot that is always written. -/
def plainSlot (name : String) (type : ScalarType) : Slot :=
  { field := name, column := name, type := .required type, role := .always }

/-- A slot that is written where it has a value. -/
def optionalSlot (name column : String) (type : ScalarType) : Slot :=
  { field := name, column, type := .optional type, role := .optional }

/-- A user of an application. -/
structure User where
  id : (ScalarType.integer .i64).Carrier
  username : String
  age : (ScalarType.integer .i32).Carrier
  timestamp : (ScalarType.integer .i64).Carrier
  isRegistered : Bool
  rating : Single
  avatar : Option (List UInt8)
  homepage : Option Uri
  nickname : Option String
  /-- Not stored; filled in after loading. -/
  displayName : String
deriving DecidableEq

/-- A post of a user. -/
structure Post where
  slug : String
  userId : (ScalarType.integer .i64).Carrier
  title : String
  body : Option String
deriving DecidableEq

/-- An entry of an address book. -/
structure Contact where
  id : (ScalarType.integer .i64).Carrier
  displayName : Option String
  starred : Bool
deriving DecidableEq

namespace User

def model : Model :=
  { name := "User", tableName := "users", packagePath := "crate::models"
    fields := [entityKey,
      { name := "username", columnName := "username", semanticType := .text,
        declaredType := "String", isUnique := true, isNotNull := true },
      { name := "age", columnName := "age", semanticType := .integer, declaredType := "i32",
        isIndexed := true },
      { name := "timestamp", columnName := "timestamp", semanticType := .long,
        declaredType := "i64", isIndexed := true },
      { name := "is_registered", columnName := "is_registered", semanticType := .boolean,
        declaredType := "bool", defaultValue := some (.bool false) },
      { name := "rating", columnName := "rating", semanticType := .real, declaredType := "f32" },
      { name := "avatar", columnName := "avatar", semanticType := .blob,
        declaredType := "Option<Vec<u8>>", nullable := true },
      { name := "homepage", columnName := "homepage", semanticType := .uri,
        declaredType := "Option<Uri>", nullable := true },
      { name := "nickname", columnName := "nick", semanticType := .text,
        declaredType := "Option<String>", nullable := true, defaultValue := some (.text "anon") }]
    provider := appDatabase
    initHooks := ["on_loaded"] }

def slots : List Slot :=
  [entityKeySlot, plainSlot "username" .text, plainSlot "age" (.integer .i32),
    plainSlot "timestamp" (.integer .i64), plainSlot "is_registered" .bool,
    plainSlot "rating" .f32, optionalSlot "avatar" "avatar" .bytes,
    optionalSlot "homepage" "homepage" .uri, optionalSlot "nickname" "nick" .text]

def view (u : User) : Instance slots :=
  (u.id, u.username, u.age, u.timestamp, u.isRegistered, u.rating, u.avatar, u.homepage,
    u.nickname, ())

def replace : Instance slots → User → User
  | (id, username, age, timestamp, isRegistered, rating, avatar, homepage, nickname, ()), u =>
    { id, username, age, timestamp, isRegistered, rating, avatar, homepage, nickname,
      displayName := u.displayName }

def initial : User :=
  { id := (ScalarType.integer .i64).initial, username := "",
    age := (ScalarType.integer .i32).initial, timestamp := (ScalarType.integer .i64).initial,
    isRegistered := false, rating := ScalarType.f32.initial, avatar := none, homepage := none,
    nickname := none, displayName := "" }

/-- A loaded user is shown by its name behind an at sign. -/
def onLoaded (u : User) : User := { u with displayName := "@" ++ u.username }

def mapping : Mapping User := .ofSlots model options slots view replace initial onLoaded

end User

namespace Post

def model : Model :=
  { name := "Post", tableName := "posts", packagePath := "crate::models"
    fields := [
      { name := "slug", columnName := "slug", semanticType := .text, declaredType := "String",
        isPrimaryKey := true },
      { name := "user_id", columnName := "user_id", semanticType := .long, declaredType := "i64",
        isIndexed := true, isNotNull := true },
      { name := "title", columnName := "title", semanticType := .text, declaredType := "String",
        isNotNull := true },
      { name := "body", columnName := "body", semanticType := .text,
        declaredType := "Option<String>", nullable := true }]
    foreignKeys := [⟨"user_id", "users", "_id"⟩]
    uniqueGroups := [["user_id", "title"]]
    provider := appDatabase }

def slots : List Slot :=
  [{ plainSlot "slug" .text with isKey := true }, plainSlot "user_id" (.integer .i64),
    plainSlot "title" .text, optionalSlot "body" "body" .text]

def view (p : Post) : Instance slots := (p.slug, p.userId, p.title, p.body, ())

def replace : Instance slots → Post → Post
  | (slug, userId, title, body, ()), _ => { slug, userId, title, body }

def initial : Post :=
  { slug := "", userId := (ScalarType.integer .i64).initial, title := "", body := none }

def mapping : Mapping Post := .ofSlots model options slots view replace initial (fun x => x)

end Post

namespace Contact

def model : Model :=
  { name := "Contact", tableName := "Contacts", packagePath := "crate::models"
    fields := [entityKey,
      { name := "display_name", columnName := "display_name", semanticType := .text,
        declaredType := "Option<String>", nullable := true },
      { name := "starred", columnName := "starred", semanticType := .boolean,
        declaredType := "bool" }]
    provider := contactsProvider }

def slots : List Slot :=
  [entityKeySlot, optionalSlot "display_name" "display_name" .text, plainSlot "starred" .bool]

def view (c : Contact) : Instance slots := (c.id, c.displayName, c.starred, ())

def replace : Instance slots → Contact → Contact
  | (id, displayName, starred, ()), _ => { id, displayName, starred }

def initial : Contact :=
  { id := (ScalarType.integer .i64).initial, displayName := none, starred := false }

def mapping : Mapping Contact := .ofSlots model options slots view replace initial (fun x => x)

end Contact

/-- The plan of the local tables, added one model after the other. -/
def modelPlan : SchemaPlan :=
  (SchemaPlan.add {} User.mapping.table User.mapping.createTable User.mapping.createIndexes).add
    Post.mapping.table Post.mapping.createTable Post.mapping.createIndexes

/-- The plan of the local tables as their provider's models make it. -/
def providerPlan : SchemaPlan := .ofModels [Post.model, User.model] options

end Sample

end TypedTables
