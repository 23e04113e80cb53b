import AegisFeed.Library.BigEndian
import AegisFeed.Library.Cursor
import AegisFeed.Library.Fallible
import AegisFeed.Library.FiniteMap
import AegisFeed.Library.FiniteMap.Counting
import AegisFeed.Library.FiniteMap.Entries
import AegisFeed.Library.Folding
import AegisFeed.Library.Interleaving
import AegisFeed.Library.Ledger
import AegisFeed.Library.Ledger.Steps
import AegisFeed.Library.Ledger.Undo
import AegisFeed.Library.Machine
import AegisFeed.Library.Padding
import AegisFeed.Library.Parsing
import AegisFeed.Library.Registry
import AegisFeed.Library.ShortCircuit
import AegisFeed.Library.Slices
import AegisFeed.Library.Sorting
import AegisFeed.Library.Words
import AegisFeed.Common.ByteReader
import AegisFeed.Common.ByteReader.Reads
import AegisFeed.Common.ByteWriter
import AegisFeed.Common.ByteWriter.Writes
import AegisFeed.Common.Error
import AegisFeed.Common.Items
import AegisFeed.Common.Items.Theorems
import AegisFeed.Common.Placements
import AegisFeed.Common.UniqueFd
import AegisFeed.Common.UniqueFd.Ledger
import AegisFeed.Itch.Decoder
import AegisFeed.Itch.Decoder.Fields
import AegisFeed.Itch.Decoder.Messages
import AegisFeed.Itch.Decoder.Theorems
import AegisFeed.Itch.Decoder.Typed
import AegisFeed.Itch.Grammar
import AegisFeed.Itch.Grammar.Faults
import AegisFeed.Itch.Layout
import AegisFeed.Itch.Lengths
import AegisFeed.Itch.Types
import AegisFeed.Itch.Wire
import AegisFeed.Book.BookStore
import AegisFeed.Book.BookStore.Accounts
import AegisFeed.Book.BookStore.Changes
import AegisFeed.Book.BookStore.Decomposition
import AegisFeed.Book.BookStore.Invariant
import AegisFeed.Book.BookStore.Locality
import AegisFeed.Book.BookStore.Market
import AegisFeed.Book.BookStore.Queries
import AegisFeed.Book.BookStore.Recovery
import AegisFeed.Book.BookStore.References
import AegisFeed.Book.BookStore.Reordering
import AegisFeed.Book.BookStore.Selection
import AegisFeed.Book.BookStore.Snapshot
import AegisFeed.Book.BookStore.Theorems
import AegisFeed.Book.BookStore.Totals
import AegisFeed.Book.BookStore.Undo
import AegisFeed.Book.BookStore.Wire
import AegisFeed.Book.OrderBook
import AegisFeed.Book.OrderBook.Algebra
import AegisFeed.Book.OrderBook.Checked
import AegisFeed.Book.OrderBook.Invariant
import AegisFeed.Book.OrderBook.Levels
import AegisFeed.Book.OrderBook.Operations
import AegisFeed.Book.OrderBook.Provenance
import AegisFeed.Book.OrderBook.Queries
import AegisFeed.Book.OrderBook.Recovery
import AegisFeed.Book.OrderBook.Reductions
import AegisFeed.Book.OrderBook.Refinement
import AegisFeed.Book.OrderBook.Rejections
import AegisFeed.Book.OrderBook.Responses
import AegisFeed.Book.OrderBook.Sides
import AegisFeed.Book.OrderBook.Theorems
import AegisFeed.Book.OrderBook.Totals
import AegisFeed.Book.OrderBook.Undo
import AegisFeed.Book.OrderBook.Validation
import AegisFeed.Book.OrderBook.View
import AegisFeed.Book.StateDigest
import AegisFeed.Book.StateDigest.Counters
import AegisFeed.Book.StateDigest.Decoding
import AegisFeed.Book.StateDigest.Hash
import AegisFeed.Book.StateDigest.Theorems
import AegisFeed.Book.SymbolDirectory
import AegisFeed.Book.SymbolDirectory.Discovery
import AegisFeed.Book.SymbolDirectory.Invariant
import AegisFeed.Book.SymbolDirectory.Names
import AegisFeed.Book.SymbolDirectory.OrderFree
import AegisFeed.Book.SymbolDirectory.Spelling
import AegisFeed.Mold.Session
import AegisFeed.Mold.Types
import AegisFeed.Mold.Wire
