import TypedStore.Backend
import TypedStore.Binary.Format
import TypedStore.Binary.Literal
import TypedStore.Binary.Rounding
import TypedStore.Binary.Shortest
import TypedStore.Command.Line
import TypedStore.Command.LogFilter
import TypedStore.Command.Report
import TypedStore.Command.Run
import TypedStore.Config
import TypedStore.Engine.Conninfo
import TypedStore.Engine.Environment
import TypedStore.Engine.Handle
import TypedStore.Engine.Host
import TypedStore.Engine.Journal
import TypedStore.Engine.Memory
import TypedStore.Engine.RowServer
import TypedStore.Engine.TableFile
import TypedStore.Engine.TablePath
import TypedStore.Entries
import TypedStore.Error
import TypedStore.Facade
import TypedStore.FileTree
import TypedStore.Image
import TypedStore.Kind
import TypedStore.Literal
import TypedStore.Machine
import TypedStore.Main
import TypedStore.Native.Block
import TypedStore.Native.Domain
import TypedStore.Native.Sha256
import TypedStore.Native.Timestamp
import TypedStore.Native.Type
import TypedStore.Operation
import TypedStore.Options
import TypedStore.Script
import TypedStore.Session
import TypedStore.Shared
import TypedStore.Sql.Dialect
import TypedStore.Sql.Identifier
import TypedStore.Sql.Statements
import TypedStore.Text.Address
import TypedStore.Text.Alphanumeric
import TypedStore.Text.Blank
import TypedStore.Text.Hex
import TypedStore.Text.Hidden
import TypedStore.Text.Numeral
import TypedStore.Text.Quoted
import TypedStore.Text.Utf8
import TypedStore.Toml.Datum
import TypedStore.Toml.Document
import TypedStore.Toml.Scalar
import TypedStore.Value
import TypedStore.Proofs.History
import TypedStore.Proofs.Contents
import TypedStore.Proofs.ValueMap
import TypedStore.Proofs.Packed
import TypedStore.Proofs.Image
import TypedStore.Proofs.Reading
import TypedStore.Proofs.Agreement
import TypedStore.Proofs.Maps
import TypedStore.Proofs.NullWrite
import TypedStore.Owners
import TypedStore.Holders
import TypedStore.Proofs.Locality
import TypedStore.Proofs.Owners
import TypedStore.Proofs.FileTree
import TypedStore.Proofs.Opening
import TypedStore.Proofs.Names
import TypedStore.Proofs.Removal
import TypedStore.Proofs.TablePath
import TypedStore.Proofs.Opened
import TypedStore.Proofs.Engines
import TypedStore.Proofs.Reachable
import TypedStore.Proofs.Places
import TypedStore.Proofs.Reopening
import TypedStore.Proofs.Keys
import TypedStore.Proofs.Wiping
import TypedStore.Proofs.Decoding
import TypedStore.Proofs.Simulation
import TypedStore.Proofs.Statements
import TypedStore.Proofs.Tables
import TypedStore.Proofs.Held
import TypedStore.Proofs.Holders
import TypedStore.Proofs.Commands
import TypedStore.Proofs.Spelling
import TypedStore.Proofs.Arguments
import TypedStore.Proofs.CommandLine
import TypedStore.Proofs.Utf8
import TypedStore.Proofs.Lossy
import TypedStore.Proofs.Acceptance
import TypedStore.Proofs.Rounding
import TypedStore.Proofs.Coercion
import TypedStore.Proofs.ReadPaths
import TypedStore.Proofs.Letters
import TypedStore.Proofs.Hex
import TypedStore.Proofs.Uuid
import TypedStore.Proofs.RoundTrip
import TypedStore.Proofs.TextBytes
import TypedStore.Proofs.Document
import TypedStore.Proofs.Fields
import TypedStore.Proofs.Settings
import TypedStore.Proofs.Quoting
import TypedStore.Proofs.Timestamp
import TypedStore.Proofs.Confined
import TypedStore.Proofs.Directories
import TypedStore.Proofs.Words
import TypedStore.Proofs.Numerals
import TypedStore.Proofs.Literals
import TypedStore.Proofs.Nearest
import TypedStore.Proofs.Shortest
import TypedStore.Proofs.Positional
import TypedStore.Proofs.Printed
import TypedStore.Proofs.Magnitudes
import TypedStore.Proofs.Narrowing
import TypedStore.Proofs.ForeignRows
