/-
  The sample tables of a new store: `users`, and `posts` that refer to them.
-/
import PocketSql.Settings
import PocketSql.Store

namespace PocketSql

/-- The definition of the table of users. -/
def usersSchema : Schema where
  name := "users"
  columns :=
    [(Column.ofName "id" .serial).asPrimaryKey,
     (Column.ofName "name" (.varchar (some 100))).asNotNull,
     (Column.ofName "email" (.varchar (some 100))).asUnique,
     Column.ofName "age" .integer,
     (Column.ofName "created_at" .timestamp).withDefault .now]
  columns_ne_nil := by simp
  names_nodup := by decide
  one_primaryKey := by decide

/-- The definition of the table of posts. -/
def postsSchema : Schema where
  name := "posts"
  columns :=
    [(Column.ofName "id" .serial).asPrimaryKey,
     (Column.ofName "user_id" .integer).withReference ⟨"users", "id"⟩,
     (Column.ofName "title" (.varchar (some 200))).asNotNull,
     Column.ofName "content" .text,
     (Column.ofName "created_at" .timestamp).withDefault .now]
  columns_ne_nil := by simp
  names_nodup := by decide
  one_primaryKey := by decide

/-- A user, registered at an instant. -/
def userTuple (instant : Timestamp) (id : Int64) (name email : String) (age : Int64) : Tuple :=
  [.integer id, .text name, .text email, .integer age, .instant instant]

/-- A post, written at an instant. -/
def postTuple (instant : Timestamp) (id user : Int64) (title content : String) : Tuple :=
  [.integer id, .integer user, .text title, .text content, .instant instant]

/-- The table of users. -/
def usersTable (clock : Nat → Timestamp) : Table :=
  ⟨usersSchema,
    [userTuple (clock 0) 1 "Ahmet Yılmaz" "ahmet@example.com" 25,
     userTuple (clock 1) 2 "Fatma Kaya" "fatma@example.com" 30,
     userTuple (clock 2) 3 "Mehmet Öz" "mehmet@example.com" 28]⟩

/-- The table of posts. -/
def postsTable (clock : Nat → Timestamp) : Table :=
  ⟨postsSchema,
    [postTuple (clock 3) 1 1 "İlk Postum" "Bu benim ilk blog postum.",
     postTuple (clock 4) 2 1 "SQL Öğreniyorum" "PostgreSQL çok güçlü bir veritabanı.",
     postTuple (clock 5) 3 2 "Web Geliştirme" "Next.js ile harika projeler yapabiliyoruz."]⟩

/-- The store with the sample tables, whose rows are made at the instants of a clock. -/
def sampleStore (clock : Nat → Timestamp) : Store :=
  ⟨[usersTable clock, postsTable clock]⟩

/-- A new store under some settings. -/
def Store.ofSettings (settings : Settings) (clock : Nat → Timestamp) : Store :=
  if settings.seedSample then sampleStore clock else .empty

end PocketSql
